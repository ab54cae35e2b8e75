import Stylesheet.Proofs.Rule.Reading
import Stylesheet.Proofs.TwoRuns

/-!
# Values read for two providers

Reading a rule's value puts no question to the provider but for the size of a font that is written
as an expression.  So the values that are read for two providers are equal, and what is recorded on
the way is the same, up to such sizes and the failures of their evaluation.
-/

namespace Stylesheet

open Logged

/-- A text is a font whose size is an expression with a given body. -/
def Literal.SizedBy (text body : String) : Prop :=
  body? text = none ∧ isCallOf fontMark text = true ∧
    ∃ family size, callArguments fontMark text = [family, size] ∧ body? size = some body

mutual

/-- `node.EqualButSizes value value'`: two values of a node are equal but for the sizes of fonts
that the node writes as expressions. -/
inductive Node.EqualButSizes : Node → Value → Value → Prop where
  | equal (node : Node) (value : Value) : Node.EqualButSizes node value value
  | font {text body : String} (hsize : Literal.SizedBy text body) (family : Option String)
      (size size' : Float) (kept kept' : Option Query) :
      Node.EqualButSizes (.scalar (.text text)) (.plain (.font ⟨family, size, kept⟩))
        (.plain (.font ⟨family, size', kept'⟩))
  | conditional {pairs : List (Node × Node)} {written written' : List (Branch Value)} (kind : Kind)
      (hbranches : Node.BranchesEqualButSizes pairs written written') :
      Node.EqualButSizes (.mapping pairs) (.conditional kind (storageOrder written))
        (.conditional kind (storageOrder written'))

/-- The branches of some pairs, in the order in which they are written, are equal but for the sizes
of fonts that the pairs write as expressions. -/
inductive Node.BranchesEqualButSizes :
    List (Node × Node) → List (Branch Value) → List (Branch Value) → Prop where
  | nil : Node.BranchesEqualButSizes [] [] []
  | cons {key node : Node} {rest : List (Node × Node)} {source : String} {value value' : Value}
      {others others' : List (Branch Value)} (condition : Expression)
      (hsource : key.text? = some source) (hvalue : Node.EqualButSizes node value value')
      (hothers : Node.BranchesEqualButSizes rest others others') :
      Node.BranchesEqualButSizes ((key, node) :: rest) (⟨source, condition, value⟩ :: others)
        (⟨source, condition, value'⟩ :: others')

end

namespace Node

variable {node : Node} {value value' : Value}

theorem EqualButSizes.kind_eq (hequal : node.EqualButSizes value value') :
    value.kind = value'.kind := by
  cases hequal <;> rfl

theorem EqualButSizes.isConditional_eq (hequal : node.EqualButSizes value value') :
    value.isConditional = value'.isConditional := by
  cases hequal <;> rfl

/-- The conditions of branches, as they are written and as they are compiled. -/
def conditions (branches : List (Branch Value)) : List (String × Expression) :=
  branches.map fun branch => (branch.source, branch.condition)

theorem BranchesEqualButSizes.kinds_eq {pairs : List (Node × Node)}
    {written written' : List (Branch Value)}
    (hequal : Node.BranchesEqualButSizes pairs written written') :
    written.map (·.value.kind) = written'.map (·.value.kind) := by
  induction pairs generalizing written written' with
  | nil =>
      cases hequal
      rfl
  | cons pair rest ih =>
      cases hequal with
      | cons condition hsource hvalue hothers =>
          simp only [List.map_cons, hvalue.kind_eq, ih hothers]

theorem BranchesEqualButSizes.conditions_eq {pairs : List (Node × Node)}
    {written written' : List (Branch Value)}
    (hequal : Node.BranchesEqualButSizes pairs written written') :
    conditions written = conditions written' := by
  induction pairs generalizing written written' with
  | nil =>
      cases hequal
      rfl
  | cons pair rest ih =>
      cases hequal with
      | cons condition hsource hvalue hothers =>
          simpa [conditions] using ih hothers

/-- Which branch is stored where depends on the texts of the conditions alone. -/
theorem conditions_storageOrder (written : List (Branch Value)) :
    conditions (storageOrder written)
      = ((conditions written).filter fun condition =>
            !Literal.mentions Constants.fallback.toList condition.1.toList).reverse
        ++ (conditions written).filter fun condition =>
            Literal.mentions Constants.fallback.toList condition.1.toList := by
  simp [conditions, storageOrder, List.filter_map, Function.comp_def, Branch.isFallback]

theorem EqualButSizes.conditions_eq (hequal : node.EqualButSizes value value') :
    conditions value.branches = conditions value'.branches := by
  cases hequal with
  | equal => rfl
  | font => rfl
  | conditional kind hbranches =>
      rw [Value.branches, Value.branches, conditions_storageOrder, conditions_storageOrder,
        hbranches.conditions_eq]

end Node

variable {provider provider' : Provider} {key : Option String}

namespace RuleContext

/-- A font size does not depend on the provider unless it is an expression. -/
theorem fontSize_agree {ε : Type} (text : String) :
    Agree (fun size size' => Literal.body? text = none → size = size')
      (fontSize ⟨provider, key⟩ text : Logged Event ε Float)
      (fontSize ⟨provider', key⟩ text) := by
  unfold fontSize
  cases hbody : Literal.body? text with
  | none =>
      apply Agree.refl
      exact fun size _ => rfl
  | some body =>
      apply Agree.bind (Agree.refl (R := Eq) (fun _ => rfl) _)
      rintro e _ rfl
      obtain ⟨size, hsize, -⟩ := Expression.outcome_evaluate (ε := ε) e provider key
      obtain ⟨size', hsize', -⟩ := Expression.outcome_evaluate (ε := ε) e provider' key
      refine ⟨?_, ?_⟩
      · dsimp only
        rw [hsize, hsize']
        exact .ok nofun
      · have hforgets (other : Provider) :
            (e.evaluate other key : Logged Event ε Float).lasting = [] := by
          rw [lasting, Expression.diagnostics_evaluate, List.filter_eq_nil_iff]
          intro d hd
          rw [Option.mem_toList] at hd
          obtain ⟨reason, -, rfl⟩ := Expression.failure?_eq_some_iff.mp hd
          simp [Expression.failure]
        rw [hforgets, hforgets]

theorem fontOf_cases (family : String) :
    ∃ name, ∀ size kept, fontOf family size kept = ⟨name, size, kept⟩ := by
  unfold fontOf
  by_cases hsystem : Text.sameLetters family.toList Font.systemName.toList = true
  · exact ⟨none, fun size kept => by rw [if_pos hsystem]; rfl⟩
  · exact ⟨some family, fun size kept => by rw [if_neg hsystem]⟩

/-- A size that is no expression is no answer to a question. -/
theorem sizeKept?_of_none {context : RuleContext} {text : String}
    (hbody : Literal.body? text = none) : context.sizeKept? text = none := by
  rw [sizeKept?, hbody]
  rfl

theorem parseText_agree (text : String) :
    Agree (Node.EqualButSizes (.scalar (.text text)))
      (parseText ⟨provider, key⟩ text) (parseText ⟨provider', key⟩ text) := by
  unfold parseText
  cases hbody : Literal.body? text with
  | some body => exact Agree.refl (Node.EqualButSizes.equal _) _
  | none =>
      dsimp only
      by_cases hfont : Literal.isCallOf Literal.fontMark text = true
      · rw [if_pos hfont, if_pos hfont]
        split
        · next family size harguments =>
            apply Agree.bind (fontSize_agree size)
            intro points points' hpoints
            obtain ⟨name, hname⟩ := fontOf_cases (Literal.unquote family)
            rw [hname, hname]
            apply Agree.pure
            cases hsize : Literal.body? size with
            | none =>
                rw [hpoints hsize, sizeKept?_of_none hsize, sizeKept?_of_none hsize]
                exact .equal _ _
            | some body =>
                exact .font ⟨hbody, hfont, family, size, harguments, hsize⟩ name points points' _ _
        · exact Agree.fail _
      · rw [if_neg hfont, if_neg hfont]
        exact Agree.refl (Node.EqualButSizes.equal _) _

theorem parseScalar_agree (scalar : Scalar) :
    Agree (Node.EqualButSizes (.scalar scalar))
      (parseScalar ⟨provider, key⟩ scalar) (parseScalar ⟨provider', key⟩ scalar) := by
  cases scalar with
  | text s => exact parseText_agree s
  | null | boolean | number => exact Agree.pure (.equal _ _)

end RuleContext

namespace Value

/-- Branches make one conditional value, and are reported alike, if they are equal but for sizes. -/
theorem ofBranches_agree {ε : Type} {pairs : List (Node × Node)}
    {written written' : List (Branch Value)}
    (hequal : Node.BranchesEqualButSizes pairs written written') :
    Agree (Node.EqualButSizes (.mapping pairs))
      (ofBranches key written : Logged Event ε Value) (ofBranches key written') := by
  unfold ofBranches
  rw [hequal.kinds_eq]
  dsimp only
  split
  · exact Agree.pure (.conditional _ hequal)
  · apply Agree.bind (Agree.refl (R := fun _ _ => True) (fun _ => trivial) _)
    rintro - - -
    exact Agree.pure (.conditional _ hequal)

mutual

/-- The values that a node is read as for two providers are equal but for the sizes of fonts that
it writes as expressions. -/
theorem ofNode_agree (provider provider' : Provider) (key : Option String) :
    ∀ node : Node, Agree node.EqualButSizes
      (ofNode ⟨provider, key⟩ node) (ofNode ⟨provider', key⟩ node)
  | .scalar scalar => by
      rw [ofNode, ofNode]
      exact RuleContext.parseScalar_agree scalar
  | .sequence items => by
      rw [ofNode, ofNode]
      exact Agree.pure (.equal _ _)
  | .mapping pairs => by
      rw [ofNode, ofNode]
      apply Agree.bind (branchesOfPairs_agree provider provider' key pairs)
      intro written written' hequal
      exact ofBranches_agree hequal

theorem branchesOfPairs_agree (provider provider' : Provider) (key : Option String) :
    ∀ pairs : List (Node × Node), Agree (Node.BranchesEqualButSizes pairs)
      (branchesOfPairs ⟨provider, key⟩ pairs) (branchesOfPairs ⟨provider', key⟩ pairs)
  | [] => by
      rw [branchesOfPairs, branchesOfPairs]
      exact Agree.pure .nil
  | (condition, node) :: rest => by
      rw [branchesOfPairs, branchesOfPairs]
      cases hcondition : condition.condition? with
      | none => exact Agree.fail _
      | some written =>
          obtain ⟨source, body⟩ := written
          have hsource : condition.text? = some source := by
            obtain ⟨text, htext, hbody⟩ := Option.bind_eq_some_iff.mp hcondition
            obtain ⟨_, -, hpair⟩ := Option.bind_eq_some_iff.mp hbody
            cases hpair
            exact htext
          apply Agree.bind (ofNode_agree provider provider' key node)
          intro value value' hvalue
          apply Agree.bind (Agree.refl (R := Eq) (fun _ => rfl) _)
          rintro e _ rfl
          apply Agree.bind (branchesOfPairs_agree provider provider' key rest)
          intro others others' hothers
          exact Agree.pure (.cons e hsource hvalue hothers)

end

end Value

/-- Two rules of one node that are equal but for the sizes of fonts that it writes as
expressions. -/
structure Rule.EqualButSizes (node : Node) (rule rule' : Rule) : Prop where
  key : rule.key = rule'.key
  kind : rule.value.kind = rule'.value.kind
  isConditional : rule.value.isConditional = rule'.value.isConditional
  conditions : Node.conditions rule.value.branches = Node.conditions rule'.value.branches
  value : node.EqualButSizes rule.value rule'.value

theorem Rule.ofNode_agree (provider provider' : Provider) (key : String) (node : Node) :
    Agree (Rule.EqualButSizes node) (Rule.ofNode provider key node)
      (Rule.ofNode provider' key node) := by
  apply Agree.bind (Value.ofNode_agree provider provider' (some key) node)
  intro value value' hvalue
  exact Agree.pure ⟨rfl, hvalue.kind_eq, hvalue.isConditional_eq, hvalue.conditions_eq, hvalue⟩

end Stylesheet
