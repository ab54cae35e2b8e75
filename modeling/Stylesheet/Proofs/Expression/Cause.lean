import Stylesheet.Expression.Evaluate
import Stylesheet.Proofs.Logged

/-!
# Questions and failures of an evaluation

A tree accounts for its evaluation.  Each question is about a name in the tree that is no constant,
and an evaluation fails just when it comes to a node that is the cause of it: a name without a
value, an operator at operands that it has no value for, a call that cannot be made or has no value,
a leaf outside the language, or a node that lies too deep.
-/

namespace Stylesheet

open Logged

/-- Environment symbols are never asked for as variables. -/
theorem Query.ofName_eq_named_iff {name other : String} :
    Query.ofName name = .named other ↔
      name = other ∧ (Named.ofName? name : Option EnvironmentSymbol) = none := by
  unfold Query.ofName
  cases (Named.ofName? name : Option EnvironmentSymbol) <;> simp

/-- `e.CausedBy provider budget node`: with a budget for what is below it, an evaluation goes wrong
at a node because of that node, the values below it and the provider's answers. -/
inductive EvaluationError.CausedBy (provider : Provider) (budget : Nat) :
    EvaluationError → Expr → Prop where
  | unknownSymbol {name : String} (hconstant : constant? name = none)
      (hanswer : provider.answer (.ofName name) = .ok none) :
      CausedBy provider budget (.unknownSymbol name) (.name name)
  | unresolvedSymbol {name reason : String} (hconstant : constant? name = none)
      (hanswer : provider.answer (.ofName name) = .error reason) :
      CausedBy provider budget (.unresolvedSymbol name reason) (.name name)
  | divisionByZero {left right : Expr} {x y : Float}
      (hleft : (left.evaluateWithin provider budget).outcome = .ok x)
      (hright : (right.evaluateWithin provider budget).outcome = .ok y) (hzero : (y == 0) = true) :
      CausedBy provider budget .divisionByZero (.binary .divide left right)
  | moduloByZero {left right : Expr} {x y : Float}
      (hleft : (left.evaluateWithin provider budget).outcome = .ok x)
      (hright : (right.evaluateWithin provider budget).outcome = .ok y) (hzero : (y == 0) = true) :
      CausedBy provider budget .moduloByZero (.binary .modulo left right)
  | moduloOfNonFinite {left right : Expr} {x y : Float}
      (hleft : (left.evaluateWithin provider budget).outcome = .ok x)
      (hright : (right.evaluateWithin provider budget).outcome = .ok y) (hzero : (y == 0) = false)
      (hfinite : Decimal.isFinite x = false) :
      CausedBy provider budget (.moduloOfNonFinite x) (.binary .modulo left right)
  | unknownFunction {function : String} {arguments : List Expr}
      (hfunction : Function.ofName? function = none) :
      CausedBy provider budget (.unknownFunction function) (.call function arguments)
  | argumentCount {function : String} {arguments : List Expr} {f : Function}
      (hfunction : Function.ofName? function = some f)
      (haccepts : f.accepts arguments.length = false) :
      CausedBy provider budget (.argumentCount function arguments.length) (.call function arguments)
  | functionFault {function : String} {arguments : List Expr} {f : Function} {fault : FunctionFault}
      {values : List Float} (hfunction : Function.ofName? function = some f)
      (haccepts : f.accepts arguments.length = true)
      (hvalues : (Expr.evaluateAllWithin provider budget arguments).outcome = .ok values)
      (hfault : f.apply values = .error fault) (harity : fault ≠ .arity) :
      CausedBy provider budget (.functionFault function fault) (.call function arguments)
  | unknownOperator {symbol : String} {left right : Expr} {x y : Float}
      (hleft : (left.evaluateWithin provider budget).outcome = .ok x)
      (hright : (right.evaluateWithin provider budget).outcome = .ok y) :
      CausedBy provider budget (.unknownOperator symbol) (.binary (.unlisted symbol) left right)
  | unknownUnaryOperator {symbol : String} {operand : Expr} {x : Float}
      (hoperand : (operand.evaluateWithin provider budget).outcome = .ok x) :
      CausedBy provider budget (.unknownUnaryOperator symbol) (.unary (.unlisted symbol) operand)
  | foreign {leaf : Foreign} : CausedBy provider budget (.foreign leaf) (.foreign leaf)

/-- Whether an operator goes on to its right operand after the value of its left one. -/
def BinaryOperator.needsRight : BinaryOperator → Float → Bool
  | .and, x => truthy x
  | .or, x => !truthy x
  | _, _ => true

theorem BinaryOperator.needsRight_of_strict (op : BinaryOperator) (hand : op ≠ .and)
    (hor : op ≠ .or) (x : Float) : op.needsRight x = true := by
  cases op <;> simp_all [needsRight]

namespace Expr

/-- `tree.GoesTo provider budget child`: with a budget for what is below it, an evaluation of the
tree comes to a tree right below its root. -/
inductive GoesTo (provider : Provider) (budget : Nat) : Expr → Expr → Prop where
  | operand {op : UnaryOperator} {operand : Expr} :
      GoesTo provider budget (.unary op operand) operand
  | left {op : BinaryOperator} {left right : Expr} :
      GoesTo provider budget (.binary op left right) left
  | right {op : BinaryOperator} {left right : Expr} {x : Float}
      (hleft : (left.evaluateWithin provider budget).outcome = .ok x)
      (hneeds : op.needsRight x = true) : GoesTo provider budget (.binary op left right) right
  | condition {condition whenTrue whenFalse : Expr} :
      GoesTo provider budget (.conditional condition whenTrue whenFalse) condition
  | whenTrue {condition whenTrue whenFalse : Expr} {x : Float}
      (hcondition : (condition.evaluateWithin provider budget).outcome = .ok x)
      (htrue : truthy x = true) :
      GoesTo provider budget (.conditional condition whenTrue whenFalse) whenTrue
  | whenFalse {condition whenTrue whenFalse : Expr} {x : Float}
      (hcondition : (condition.evaluateWithin provider budget).outcome = .ok x)
      (hfalse : truthy x = false) :
      GoesTo provider budget (.conditional condition whenTrue whenFalse) whenFalse
  | argument {function : String} {f : Function} {before after : List Expr} {argument : Expr}
      {values : List Float} (hfunction : Function.ofName? function = some f)
      (haccepts : f.accepts (before ++ argument :: after).length = true)
      (hbefore : (evaluateAllWithin provider budget before).outcome = .ok values) :
      GoesTo provider budget (.call function (before ++ argument :: after)) argument

/-- `tree.Meets provider budget part rest`: an evaluation of a tree with a budget comes to a part of
the tree, with the rest of the budget. -/
inductive Meets (provider : Provider) : Expr → Nat → Expr → Nat → Prop where
  | self (tree : Expr) (budget : Nat) : Meets provider tree budget tree budget
  | next {tree child part : Expr} {budget rest : Nat} (hchild : tree.GoesTo provider budget child)
      (hpart : Meets provider child budget part rest) :
      Meets provider tree (budget + 1) part rest

/-- `tree.FailsWith provider budget e`: an evaluation of a tree comes to a part that is the cause of
an error, or to one for which nothing is left of the budget. -/
inductive FailsWith (tree : Expr) (provider : Provider) (budget : Nat) :
    EvaluationError → Prop where
  | cause {part : Expr} {rest : Nat} {e : EvaluationError}
      (hmeets : tree.Meets provider budget part (rest + 1))
      (hcause : e.CausedBy provider rest part) : FailsWith tree provider budget e
  | tooDeep {part : Expr} (hmeets : tree.Meets provider budget part 0) :
      FailsWith tree provider budget .tooDeep

/-- What an evaluation of a tree may ask: the value of a name in it that is no constant. -/
def MayAsk (tree : Expr) (query : Query) : Prop :=
  ∃ depth name, tree.HasPart depth (.name name) ∧ constant? name = none ∧
    query = Query.ofName name

/-- The root of a tree is met within any budget. -/
theorem FailsWith.of_causedBy {tree : Expr} {provider : Provider} {budget : Nat}
    {e : EvaluationError} (hcause : e.CausedBy provider budget tree) :
    tree.FailsWith provider (budget + 1) e :=
  .cause (.self tree _) hcause

theorem GoesTo.mem_children {tree child : Expr} {provider : Provider} {budget : Nat}
    (hchild : tree.GoesTo provider budget child) : child ∈ tree.children := by
  cases hchild <;> simp [children]

/-- A part that is met is as deep in the tree as much of the budget is spent. -/
theorem Meets.exists_hasPart {tree part : Expr} {provider : Provider} {budget rest : Nat}
    (hmeets : tree.Meets provider budget part rest) :
    ∃ depth, depth + rest = budget ∧ tree.HasPart depth part := by
  induction hmeets with
  | self tree budget => exact ⟨0, Nat.zero_add _, .self tree⟩
  | next hchild _ ih =>
      obtain ⟨depth, hdepth, hpart⟩ := ih
      exact ⟨depth + 1, by omega, .child hchild.mem_children hpart⟩

/-- A tree accounts for an evaluation: for its questions, and for its failure if it fails. -/
structure Accounts (tree : Expr) (provider : Provider) (budget : Nat) {α : Type}
    (x : Evaluation α) : Prop where
  asked : ∀ query ∈ x.log, tree.MayAsk query
  failed : ∀ e, x.outcome = .error e → tree.FailsWith provider budget e

namespace Accounts

variable {tree child : Expr} {provider : Provider} {budget : Nat} {α β : Type}

theorem pure (a : α) : tree.Accounts provider budget (Pure.pure a : Evaluation α) :=
  ⟨nofun, nofun⟩

theorem fail {e : EvaluationError} (hcause : e.CausedBy provider budget tree) :
    tree.Accounts provider (budget + 1) (Logged.fail e : Evaluation α) := by
  refine ⟨nofun, fun e' he' => ?_⟩
  cases he'
  exact .of_causedBy hcause

theorem ofExcept {outcome : Except EvaluationError α}
    (hcause : ∀ e, outcome = .error e → e.CausedBy provider budget tree) :
    tree.Accounts provider (budget + 1) (Logged.ofExcept outcome) :=
  ⟨nofun, fun e he => .of_causedBy (hcause e he)⟩

theorem bind {x : Evaluation α} {f : α → Evaluation β} (hx : tree.Accounts provider budget x)
    (hf : ∀ a, x.outcome = .ok a → tree.Accounts provider budget (f a)) :
    tree.Accounts provider budget (x >>= f) := by
  cases houtcome : x.outcome with
  | error e =>
      rw [bind_of_error houtcome]
      refine ⟨hx.asked, fun e' he' => ?_⟩
      cases he'
      exact hx.failed e houtcome
  | ok a =>
      rw [bind_of_ok houtcome]
      refine ⟨fun query hquery => ?_, (hf a houtcome).failed⟩
      rcases List.mem_append.mp hquery with hquery | hquery
      · exact hx.asked query hquery
      · exact (hf a houtcome).asked query hquery

/-- What is below the root of a tree is one level deeper in the tree. -/
theorem of_child {x : Evaluation α} (hchild : tree.GoesTo provider budget child)
    (hx : child.Accounts provider budget x) : tree.Accounts provider (budget + 1) x := by
  constructor
  · intro query hquery
    obtain ⟨depth, name, hpart, hconstant, hname⟩ := hx.asked query hquery
    exact ⟨depth + 1, name, .child hchild.mem_children hpart, hconstant, hname⟩
  · intro e he
    cases hx.failed e he with
    | cause hmeets hcause => exact .cause (.next hchild hmeets) hcause
    | tooDeep hmeets => exact .tooDeep (.next hchild hmeets)

theorem nested {inner : Nat → Evaluation α}
    (hinner : ∀ rest, tree.Accounts provider (rest + 1) (inner rest)) (budget : Nat) :
    tree.Accounts provider budget (nested budget inner) := by
  cases budget with
  | zero =>
      refine ⟨nofun, fun e he => ?_⟩
      cases he
      exact .tooDeep (.self tree 0)
  | succ rest => exact hinner rest

end Accounts

end Expr

/-- Asking puts the question once, and a failure to answer is one of the name. -/
theorem Provider.ask_eq (provider : Provider) (query : Query) (name : String) :
    provider.ask query name
      = ⟨(provider.answer query).mapError (.unresolvedSymbol name), [query]⟩ := by
  rw [ask, bind_of_ok (outcome_note query)]
  cases provider.answer query <;> rfl

/-- A constant has its value whatever the provider answers; another name is asked for. -/
theorem Provider.valueOf_eq (provider : Provider) (name : String) :
    provider.valueOf name = match constant? name with
      | some value => pure value
      | none => provider.ask (.ofName name) name >>= fun answer => match answer with
        | some value => pure value
        | none => Logged.fail (.unknownSymbol name) := rfl

/-- A name accounts for the search for its value. -/
theorem Provider.accounts_valueOf (provider : Provider) (name : String) (budget : Nat) :
    (Expr.name name).Accounts provider (budget + 1) (provider.valueOf name) := by
  rw [valueOf_eq]
  cases hconstant : constant? name with
  | some value => exact .pure value
  | none =>
      have hask : (Expr.name name).Accounts provider (budget + 1)
          (provider.ask (.ofName name) name) := by
        rw [ask_eq]
        constructor
        · intro query hquery
          exact ⟨0, name, .self _, hconstant, List.mem_singleton.mp hquery⟩
        · intro e he
          cases hanswer : provider.answer (.ofName name) with
          | ok answer =>
              rw [hanswer] at he
              cases he
          | error reason =>
              rw [hanswer] at he
              cases he
              exact .of_causedBy (.unresolvedSymbol hconstant hanswer)
      refine hask.bind fun answer hanswer => ?_
      cases answer with
      | some value => exact .pure value
      | none =>
          rw [ask_eq] at hanswer
          apply Expr.Accounts.fail
          apply EvaluationError.CausedBy.unknownSymbol hconstant
          cases hprovider : provider.answer (.ofName name) with
          | ok answer =>
              rw [hprovider] at hanswer
              cases hanswer
              rfl
          | error reason =>
              rw [hprovider] at hanswer
              cases hanswer

section

variable {provider : Provider} {budget : Nat} {left right : Expr} {x y : Float}
  {e : EvaluationError}

/-- An operator without a value at the values of its operands is the cause of that. -/
theorem UnaryOperator.causedBy_of_apply {op : UnaryOperator} {operand : Expr}
    (hoperand : (operand.evaluateWithin provider budget).outcome = .ok x)
    (he : op.apply x = .error e) : e.CausedBy provider budget (.unary op operand) := by
  cases op with
  | not | negate => cases he
  | unlisted symbol =>
      cases he
      exact .unknownUnaryOperator hoperand

theorem BinaryOperator.causedBy_of_apply {op : BinaryOperator}
    (hleft : (left.evaluateWithin provider budget).outcome = .ok x)
    (hright : (right.evaluateWithin provider budget).outcome = .ok y)
    (he : op.apply x y = .error e) : e.CausedBy provider budget (.binary op left right) := by
  cases op with
  | divide =>
      simp only [apply] at he
      split at he
      · next hzero =>
          cases he
          exact .divisionByZero hleft hright hzero
      · cases he
  | modulo =>
      simp only [apply] at he
      split at he
      · next hzero =>
          cases he
          exact .moduloByZero hleft hright hzero
      · next hzero =>
          split at he
          · next hfinite =>
              cases he
              exact .moduloOfNonFinite hleft hright (Bool.eq_false_iff.mpr hzero)
                (by simpa using hfinite)
          · cases he
  | unlisted symbol =>
      cases he
      exact .unknownOperator hleft hright
  | or | and | equal | notEqual | less | lessEqual | greater | greaterEqual => cases he
  | add | subtract | multiply => cases he

end

namespace Function

theorem exact_ne_arity (x : Float) : exact x ≠ .error .arity := by
  unfold exact
  split
  · nofun
  · split <;> nofun

theorem roundTo_ne_arity (x : Float) (places : Int) : roundTo x places ≠ .error .arity := by
  unfold roundTo
  split
  · nofun
  · split
    · nofun
    · split
      · nofun
      · dsimp only
        split <;> nofun

/-- A function that takes a number of arguments has a case for them. -/
theorem apply_ne_arity {f : Function} {values : List Float}
    (haccepts : f.accepts values.length = true) : f.apply values ≠ .error .arity := by
  simp only [accepts, Bool.and_eq_true, decide_eq_true_eq] at haccepts
  obtain ⟨hleast, hmost⟩ := haccepts
  have hone (hmost : decide (values.length ≤ 1) = true) : ∃ x, values = [x] :=
    List.length_eq_one_iff.mp (Nat.le_antisymm (of_decide_eq_true hmost)
      (Nat.le_trans (by cases f <;> decide) hleast))
  cases f with
  | abs =>
      obtain ⟨x, rfl⟩ := hone hmost
      nofun
  | min | max =>
      cases values with
      | nil => cases hleast
      | cons x rest => nofun
  | floor | ceil =>
      obtain ⟨x, rfl⟩ := hone hmost
      exact bind_ne_error (exact_ne_arity x) nofun
  | sqrt =>
      obtain ⟨x, rfl⟩ := hone hmost
      simp only [apply]
      split <;> nofun
  | round =>
      have hshort : values.length ≤ 2 := of_decide_eq_true hmost
      match values, hleast, hshort with
      | [x], _, _ => exact roundTo_ne_arity x 0
      | [x, places], _, _ =>
          exact bind_ne_error (exact_ne_arity places) fun b _ => roundTo_ne_arity x b.truncate
  | pow =>
      have hshort : values.length ≤ 2 := of_decide_eq_true hmost
      match values, hleast, hshort with
      | [x, y], _, _ =>
          simp only [apply]
          split
          · nofun
          · split <;> nofun

end Function

namespace Expr

variable {provider : Provider}

/-- As many values as there are arguments. -/
theorem length_of_evaluateAllWithin {arguments : List Expr} {budget : Nat} {values : List Float}
    (hvalues : (evaluateAllWithin provider budget arguments).outcome = .ok values) :
    values.length = arguments.length := by
  induction arguments generalizing values with
  | nil =>
      rw [evaluateAllWithin] at hvalues
      cases hvalues
      rfl
  | cons argument rest ih =>
      rw [evaluateAllWithin] at hvalues
      obtain ⟨value, -, hvalues⟩ := outcome_bind_eq_ok_iff.mp hvalues
      obtain ⟨others, hothers, hvalues⟩ := outcome_bind_eq_ok_iff.mp hvalues
      cases hvalues
      exact congrArg Nat.succ (ih hothers)

theorem outcome_evaluateAllWithin_cons {argument : Expr} {rest : List Expr} {budget : Nat}
    {value : Float} {values : List Float}
    (hvalue : (argument.evaluateWithin provider budget).outcome = .ok value)
    (hvalues : (evaluateAllWithin provider budget rest).outcome = .ok values) :
    (evaluateAllWithin provider budget (argument :: rest)).outcome = .ok (value :: values) := by
  rw [evaluateAllWithin]
  exact outcome_bind_eq_ok_iff.mpr
    ⟨value, hvalue, outcome_bind_eq_ok_iff.mpr ⟨values, hvalues, rfl⟩⟩

/-- All operators but two evaluate both their operands, the left one first. -/
theorem evaluateWithin_strict {op : BinaryOperator} (hand : op ≠ .and) (hor : op ≠ .or)
    (left right : Expr) (budget : Nat) :
    (Expr.binary op left right).evaluateWithin provider budget = (nested budget fun budget => do
      let x ← left.evaluateWithin provider budget
      let y ← right.evaluateWithin provider budget
      Logged.ofExcept (op.apply x y)) := by
  rw [evaluateWithin]
  · exact hand
  · exact hor

mutual

/-- A tree accounts for its evaluation. -/
theorem accounts_evaluateWithin : ∀ (tree : Expr) (budget : Nat),
    tree.Accounts provider budget (tree.evaluateWithin provider budget)
  | .number value, budget | .boolean value, budget => by
      rw [evaluateWithin]
      exact .nested (fun _ => .pure _) budget
  | .name text, budget => by
      rw [evaluateWithin]
      exact .nested (fun rest => provider.accounts_valueOf text rest) budget
  | .unary op operand, budget => by
      rw [evaluateWithin]
      refine .nested (fun rest => ?_) budget
      have hoperand := accounts_evaluateWithin operand rest
      refine .bind (.of_child .operand hoperand) fun x hx => .ofExcept fun e he => ?_
      exact UnaryOperator.causedBy_of_apply hx he
  | .binary op left right, budget => by
      have hleft (rest : Nat) : (Expr.binary op left right).Accounts provider (rest + 1)
          (left.evaluateWithin provider rest) :=
        .of_child .left (accounts_evaluateWithin left rest)
      have hright {rest : Nat} {x : Float}
          (hx : (left.evaluateWithin provider rest).outcome = .ok x)
          (hneeds : op.needsRight x = true) : (Expr.binary op left right).Accounts provider
            (rest + 1) (right.evaluateWithin provider rest) :=
        .of_child (.right hx hneeds) (accounts_evaluateWithin right rest)
      -- the two operators that may leave their right operand alone come first
      by_cases hand : op = .and
      · subst hand
        rw [evaluateWithin]
        refine .nested (fun rest => (hleft rest).bind fun x hx => ?_) budget
        split
        · next htrue => exact (hright hx htrue).bind fun y _ => .pure _
        · exact .pure _
      · by_cases hor : op = .or
        · subst hor
          rw [evaluateWithin]
          refine .nested (fun rest => (hleft rest).bind fun x hx => ?_) budget
          split
          · exact .pure _
          · next hfalse =>
              have hneeds : BinaryOperator.or.needsRight x = true := by
                simpa [BinaryOperator.needsRight] using hfalse
              exact (hright hx hneeds).bind fun y _ => .pure _
        · rw [evaluateWithin_strict hand hor]
          refine .nested (fun rest => ?_) budget
          refine (hleft rest).bind fun x hx => ?_
          refine (hright hx (op.needsRight_of_strict hand hor x)).bind fun y hy => ?_
          exact .ofExcept fun e he => BinaryOperator.causedBy_of_apply hx hy he
  | .conditional condition whenTrue whenFalse, budget => by
      rw [evaluateWithin]
      have hcondition (rest : Nat) :=
        accounts_evaluateWithin condition rest
      have htrue (rest : Nat) := accounts_evaluateWithin whenTrue rest
      have hfalse (rest : Nat) := accounts_evaluateWithin whenFalse rest
      refine .nested (fun rest => ?_) budget
      refine .bind (.of_child .condition (hcondition rest)) fun x hx => ?_
      split
      · next hholds => exact .of_child (.whenTrue hx hholds) (htrue rest)
      · next hfails => exact .of_child (.whenFalse hx (Bool.eq_false_iff.mpr hfails)) (hfalse rest)
  | .call function arguments, budget => by
      rw [evaluateWithin]
      refine .nested (fun rest => ?_) budget
      cases hfunction : Function.ofName? function with
      | none => exact .fail (.unknownFunction hfunction)
      | some f =>
          dsimp only
          split
          · next haccepts =>
              have harguments := accounts_evaluateAllWithin
                (Expr.call function arguments) arguments rest fun before argument after values
                  hsplit hbefore => hsplit ▸ .argument hfunction (hsplit ▸ haccepts) hbefore
              refine harguments.bind fun values hvalues => ?_
              split
              · exact .pure _
              · next fault hfault =>
                  refine .fail (.functionFault hfunction haccepts hvalues hfault fun harity => ?_)
                  subst harity
                  have hcount := length_of_evaluateAllWithin hvalues
                  exact Function.apply_ne_arity (hcount ▸ haccepts) hfault
          · next haccepts =>
              exact .fail (.argumentCount hfunction (Bool.eq_false_iff.mpr haccepts))
  | .foreign leaf, budget => by
      rw [evaluateWithin]
      refine .nested (fun rest => ?_) budget
      exact .fail .foreign

theorem accounts_evaluateAllWithin (tree : Expr) : ∀ (arguments : List Expr) (budget : Nat),
    (∀ before argument after values, arguments = before ++ argument :: after →
      (evaluateAllWithin provider budget before).outcome = .ok values →
        tree.GoesTo provider budget argument) →
      tree.Accounts provider (budget + 1) (evaluateAllWithin provider budget arguments)
  | [], budget, _ => by
      rw [evaluateAllWithin]
      exact .pure _
  | argument :: rest, budget, hgoes => by
      have hargument : tree.GoesTo provider budget argument := hgoes [] argument rest [] rfl rfl
      rw [evaluateAllWithin]
      have hfirst := accounts_evaluateWithin argument budget
      refine .bind (.of_child hargument hfirst) fun value hvalue => ?_
      -- the other arguments come after this one
      have hrest := accounts_evaluateAllWithin tree rest budget
        fun before later after values hsplit hbefore =>
          hgoes (argument :: before) later after (value :: values) (hsplit ▸ rfl)
            (outcome_evaluateAllWithin_cons hvalue hbefore)
      exact hrest.bind fun values _ => .pure _

end

end Expr

end Stylesheet
