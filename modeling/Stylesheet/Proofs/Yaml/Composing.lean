import Stylesheet.Proofs.Yaml.Errors
import Stylesheet.Yaml.Document

/-!
# Faults of composing

Reading the tokens of a text and their graph fails in few ways: the text is malformed, an escape
names a code that is no character, the number of its version is too long, or collections are nested
too deeply.
-/

namespace Stylesheet.Yaml

/-- What can be wrong with a text before the values of its scalars are made. -/
inductive Fault.OfText : Fault → Prop where
  | malformed : OfText .malformed
  | escapeOutOfRange : OfText (.unreadable .escapeOutOfRange)
  | escapeTooLong : OfText (.unreadable .escapeTooLong)
  | versionTooLong : OfText (.unreadable .versionTooLong)
  | tooDeep : OfText .tooDeep

/-- A step of composing, with a result or a fault of the text. -/
abbrev Composes {α : Type} (step : Except Fault α) : Prop :=
  FailsWith Fault.OfText step

theorem FailsWith.malformed {α : Type} : Composes (.error .malformed : Except Fault α) :=
  .error .malformed

namespace Quoted

theorem composes_code (digits : List Char) : Composes (code digits) :=
  .ite (.error .escapeTooLong) (.ite (.error .escapeOutOfRange) (.ok _))

theorem composes_blankLines (fuel : Nat) (cursor : Cursor) : Composes (blankLines fuel cursor) := by
  induction fuel generalizing cursor with
  | zero => exact .ok _
  | succ fuel ih =>
      rw [blankLines]
      apply FailsWith.ite .malformed
      dsimp only
      split
      · exact .ok _
      · exact (ih _).bind fun _ => .ok _

theorem composes_escape (cursor : Cursor) : Composes (escape cursor) := by
  unfold escape
  split
  · exact .malformed
  · split
    · exact .ok _
    · exact .ite ((composes_code _).bind fun _ => .ok _) .malformed
    · split
      · exact .malformed
      · exact (composes_blankLines _ _).bind fun _ => .ok _

theorem composes_spaces (cursor : Cursor) : Composes (spaces cursor) := by
  unfold spaces
  dsimp only
  split
  · exact .ite .malformed (.ok _)
  · exact (composes_blankLines _ _).bind fun _ => .ok _

theorem composes_read (quote : Char) (fuel : Nat) (cursor : Cursor) :
    Composes (read quote fuel cursor) := by
  induction fuel generalizing cursor with
  | zero => exact .malformed
  | succ fuel ih =>
      rw [read]
      split
      · exact .malformed
      · apply FailsWith.ite
        · exact .ite ((ih _).bind fun _ => .ok _) (.ok _)
        · have hrest (codes : List Nat) (next : Cursor) : Composes (do
              let more ← read quote fuel next
              .ok (codes ++ more.1, more.2)) :=
            (ih next).bind fun _ => .ok _
          apply FailsWith.ite
          · exact (composes_escape _).bind fun piece => hrest piece.1 piece.2
          · exact .ite ((composes_spaces _).bind fun piece => hrest _ piece.2) (hrest _ _)

end Quoted

namespace Block

theorem composes_takeIncrement? (cursor : Cursor) : Composes (takeIncrement? cursor) := by
  unfold takeIncrement?
  split
  · exact .malformed
  · exact .ok _
  · exact .ok _

theorem composes_header (cursor : Cursor) : Composes (header cursor) := by
  unfold header
  split
  · exact (composes_takeIncrement? _).bind fun _ => .ok _
  · apply (composes_takeIncrement? _).bind
    rintro ⟨increment, next⟩
    dsimp only
    split <;> exact .ok _

theorem composes_read (folded : Bool) (least : Nat) (cursor : Cursor) :
    Composes (read folded least cursor) := by
  unfold read
  apply (composes_header _).bind
  rintro ⟨⟨chomping, increment⟩, cursor⟩
  dsimp only
  split
  · exact .malformed
  · split
    · exact .ok _
    · exact .malformed

end Block

namespace Cursor

variable (cursor : Cursor)

theorem composes_takeNumber : Composes cursor.takeNumber := by
  unfold takeNumber
  split
  · exact .malformed
  · exact .ite (.error .versionTooLong) (.ok _)

theorem composes_takeVersion : Composes cursor.takeVersion := by
  apply (composes_takeNumber _).bind
  rintro ⟨major, next⟩
  refine .ite .malformed ((composes_takeNumber _).bind ?_)
  rintro ⟨minor, next⟩
  exact .ite (.ok _) .malformed

theorem composes_takeMeaning (directive : String) : Composes (cursor.takeMeaning directive) := by
  unfold takeMeaning
  split
  · exact composes_takeVersion _
  · split
    · exact .ok _
    · exact .malformed
  · exact .ok _

theorem composes_takeDirective : Composes cursor.takeDirective := by
  unfold takeDirective
  cases cursor.step.takeWord? with
  | none => exact .malformed
  | some word =>
      refine .ite ((composes_takeMeaning _ _).bind ?_) .malformed
      rintro ⟨meaning, next⟩
      dsimp only
      split
      · exact .ok _
      · exact .malformed

end Cursor

namespace TokenReader

variable (reader : TokenReader)

theorem composes_keepKeys (keep : Nat × PossibleKey → Bool) : Composes (reader.keepKeys keep) :=
  .ite .malformed (.ok _)

theorem composes_dropKey : Composes reader.dropKey :=
  reader.composes_keepKeys _

theorem composes_notePossibleKey : Composes reader.notePossibleKey :=
  .ite ((composes_dropKey _).bind fun _ => .ok _) (.ok _)

theorem composes_documentMark (token : Token) : Composes (reader.documentMark token) :=
  (composes_dropKey _).bind fun _ => .ok _

theorem composes_directive : Composes reader.directive :=
  (composes_dropKey _).bind fun reader => reader.cursor.composes_takeDirective.bind fun _ => .ok _

theorem composes_openFlow (token : Token) : Composes (reader.openFlow token) :=
  reader.composes_notePossibleKey.bind fun _ => .ok _

theorem composes_closeFlow (token : Token) : Composes (reader.closeFlow token) := by
  apply reader.composes_dropKey.bind
  intro reader
  split
  · exact .malformed
  · exact .ok _

theorem composes_flowEntry : Composes reader.flowEntry :=
  (composes_dropKey _).bind fun _ => .ok _

theorem composes_blockEntry : Composes reader.blockEntry :=
  .ite .malformed ((composes_dropKey _).bind fun _ => .ok _)

theorem composes_key : Composes reader.key :=
  .ite .malformed ((composes_dropKey _).bind fun _ => .ok _)

theorem composes_value : Composes reader.value := by
  unfold value
  split
  · exact .ok _
  · exact .ite .malformed ((composes_dropKey _).bind fun _ => .ok _)

theorem composes_keyPart {piece : Except Fault (Token × Cursor)} (hpiece : Composes piece) :
    Composes (reader.keyPart piece) :=
  reader.composes_notePossibleKey.bind fun _ => hpiece.bind fun _ => .ok _

theorem composes_orMalformed {α : Type} (piece : Option (α × Cursor)) (token : α → Token) :
    Composes (orMalformed piece token) := by
  cases piece with
  | some piece => exact .ok _
  | none => exact .malformed

theorem composes_quoted (cursor : Cursor) (quote : Char) : Composes (quoted cursor quote) :=
  (Quoted.composes_read _ _ _).bind fun _ => .ok _

theorem composes_plain : Composes reader.plain :=
  reader.composes_notePossibleKey.bind fun _ => .ok _

theorem composes_block (folded : Bool) : Composes (reader.block folded) :=
  (composes_dropKey _).bind fun _ => (Block.composes_read _ _ _).bind fun _ => .ok _

theorem composes_readToken (c : Char) : Composes (reader.readToken c) := by
  unfold readToken
  apply FailsWith.ite reader.composes_directive
  apply FailsWith.ite (reader.composes_documentMark _)
  apply FailsWith.ite (reader.composes_documentMark _)
  apply FailsWith.ite (reader.composes_openFlow _)
  apply FailsWith.ite (reader.composes_openFlow _)
  apply FailsWith.ite (reader.composes_closeFlow _)
  apply FailsWith.ite (reader.composes_closeFlow _)
  apply FailsWith.ite reader.composes_flowEntry
  apply FailsWith.ite reader.composes_blockEntry
  apply FailsWith.ite reader.composes_key
  apply FailsWith.ite reader.composes_value
  apply FailsWith.ite (reader.composes_keyPart (composes_orMalformed _ _))
  apply FailsWith.ite (reader.composes_keyPart (composes_orMalformed _ _))
  apply FailsWith.ite (reader.composes_keyPart (composes_orMalformed _ _))
  apply FailsWith.ite (reader.composes_block _)
  apply FailsWith.ite (reader.composes_block _)
  apply FailsWith.ite (reader.composes_keyPart (composes_quoted _ _))
  exact .ite reader.composes_plain .malformed

theorem composes_next : Composes reader.next := by
  apply (composes_keepKeys _ _).bind
  intro reader
  dsimp only
  split
  · exact (composes_dropKey _).bind fun _ => .ok _
  · exact (composes_readToken _ _).bind fun _ => .ok _

end TokenReader

namespace TokenStream

/-- What is wrong behind the tokens of a text is a fault of the text. -/
theorem ofText_failure_ofReader (fuel : Nat) (reader : TokenReader) :
    (ofReader fuel reader).failure.OfText := by
  induction fuel generalizing reader with
  | zero => exact .malformed
  | succ fuel ih =>
      rw [ofReader]
      have hfresh : Composes reader.dropStaleKeys := reader.composes_keepKeys _
      generalize reader.dropStaleKeys = fresh at hfresh
      cases hfresh with
      | error hfault => exact hfault
      | ok reader =>
          dsimp only
          have hnext := reader.composes_next
          generalize reader.next = next at hnext
          cases hnext with
          | error hfault => exact hfault
          | ok step =>
              obtain ⟨reader, done⟩ := step
              cases done with
              | true => exact .malformed
              | false => exact ih reader

end TokenStream

namespace Grammar

/-- A step of reading a document, which leaves a fault of the text behind its tokens. -/
inductive Leaves {α : Type} : Except Fault (α × DocumentState) → Prop where
  | ok {a : α} {state : DocumentState} (hfailure : state.failure.OfText) : Leaves (.ok (a, state))
  | error {fault : Fault} (hfault : fault.OfText) : Leaves (.error fault)

/-- A reading gives a result or a fault of the text. -/
def Reads {α : Type} (reading : Reading α) : Prop :=
  ∀ state, state.failure.OfText → Leaves (reading.run state)

namespace Reads

variable {α β : Type}

theorem pure (a : α) : Reads (Pure.pure a) :=
  fun _ hfailure => .ok hfailure

theorem throw {fault : Fault} (hfault : fault.OfText) : Reads (throw fault : Reading α) :=
  fun _ _ => .error hfault

theorem malformed : Reads (malformed : Reading α) :=
  throw .malformed

theorem bind {reading : Reading α} {f : α → Reading β} (hreading : Reads reading)
    (hf : ∀ a, Reads (f a)) : Reads (reading >>= f) := by
  intro state hfailure
  rw [StateT.run_bind]
  have hfirst := hreading state hfailure
  generalize reading.run state = first at hfirst
  cases hfirst with
  | ok hfailure => exact hf _ _ hfailure
  | error hfault => exact .error hfault

theorem get_bind {f : DocumentState → Reading β}
    (hf : ∀ state, state.failure.OfText → Reads (f state)) : Reads (get >>= f) :=
  fun state hfailure => hf state hfailure state hfailure

theorem set_bind {next : DocumentState} {rest : Unit → Reading β}
    (hfailure : next.failure.OfText) (hrest : Reads (rest ())) : Reads (set next >>= rest) :=
  fun _ _ => hrest next hfailure

theorem modify_bind {f : DocumentState → DocumentState} {rest : Unit → Reading β}
    (hf : ∀ state, (f state).failure = state.failure) (hrest : Reads (rest ())) :
    Reads (modify f >>= rest) :=
  fun state hfailure => hrest (f state) ((hf state).symm ▸ hfailure)

theorem ite {p : Prop} [Decidable p] {x y : Reading α} (hx : Reads x) (hy : Reads y) :
    Reads (if p then x else y) := by
  split
  · exact hx
  · exact hy

end Reads

theorem reads_peek : Reads peek := by
  apply Reads.get_bind
  intro state hfailure
  split
  · exact .pure _
  · exact .throw hfailure

theorem reads_advance : Reads advance :=
  fun _ hfailure => .ok hfailure

theorem reads_accept (token : Token) : Reads (accept token) :=
  reads_peek.bind fun _ => .ite (reads_advance.bind fun _ => .pure _) (.pure _)

theorem reads_addNode (node : GraphNode) : Reads (addNode node) :=
  fun _ hfailure => .ok hfailure

theorem reads_bindAnchor (anchor : Option String) (number : Nat) :
    Reads (bindAnchor anchor number) := by
  cases anchor with
  | none => exact .pure _
  | some name => exact fun _ hfailure => .ok hfailure

theorem reads_findAnchor (name : String) : Reads (findAnchor name) := by
  apply Reads.get_bind
  intro state _
  split
  · exact .pure _
  · exact .malformed

theorem reads_checkAnchor (anchor : Option String) : Reads (checkAnchor anchor) := by
  cases anchor with
  | none => exact .pure _
  | some name => exact .get_bind fun _ _ => .ite .malformed (.pure _)

theorem reads_addScalar (anchor : Option String) (tag : Tag) (text : String) :
    Reads (addScalar anchor tag text) :=
  (reads_addNode _).bind fun _ => (reads_bindAnchor _ _).bind fun _ => .pure _

theorem reads_inside {α : Type} {parts : Reading α} (hparts : Reads parts) :
    Reads (inside parts) := by
  apply Reads.get_bind
  intro state _
  split
  · exact .throw .tooDeep
  · refine .modify_bind (fun _ => rfl) ?_
    exact hparts.bind fun _ => .modify_bind (fun _ => rfl) (.pure _)

theorem reads_addCollection (anchor : Option String) {parts : Reading GraphNode}
    (hparts : Reads parts) : Reads (addCollection anchor parts) :=
  (reads_addNode _).bind fun _ => (reads_bindAnchor _ _).bind fun _ =>
    (reads_inside hparts).bind fun _ => .modify_bind (fun _ => rfl) (.pure _)

theorem reads_tagName (written : WrittenTag) : Reads (tagName written) := by
  unfold tagName
  split
  · exact .pure _
  · apply Reads.get_bind
    intro state _
    split
    · exact .pure _
    · exact .malformed

theorem reads_optionalTag : Reads optionalTag := by
  apply reads_peek.bind
  intro token
  split
  · exact reads_advance.bind fun _ => (reads_tagName _).bind fun _ => .pure _
  · exact .pure _

theorem reads_optionalAnchor : Reads optionalAnchor := by
  apply reads_peek.bind
  intro token
  split
  · exact reads_advance.bind fun _ => .pure _
  · exact .pure _

theorem reads_properties : Reads properties := by
  apply reads_optionalAnchor.bind
  intro anchor
  split
  · exact reads_optionalTag.bind fun _ => .pure _
  · apply reads_optionalTag.bind
    intro tag
    split
    · exact reads_optionalAnchor.bind fun _ => .pure _
    · exact .pure _

theorem reads_nodeUnless (closing : List Token) {node : Reading Nat} (hnode : Reads node) :
    Reads (nodeUnless closing node) :=
  reads_peek.bind fun _ => .ite (reads_addNode _) hnode

theorem reads_optionalValue (closing : List Token) {node : Reading Nat} (hnode : Reads node) :
    Reads (optionalValue closing node) :=
  (reads_accept _).bind fun _ => .ite (reads_nodeUnless closing hnode) (reads_addNode _)

theorem reads_flowEnd (closing : Token) (first : Bool) : Reads (flowEnd closing first) := by
  apply (reads_accept _).bind
  intro _
  apply Reads.ite (.pure _)
  apply Reads.ite (reads_accept _)
  exact (reads_accept _).bind fun _ => .ite (reads_accept _) (Reads.malformed.bind fun _ =>
    reads_accept _)

/-- All that is read with some fuel gives a result or a fault of the text. -/
structure ReadsWithin (fuel : Nat) : Prop where
  node : ∀ place, Reads (node fuel place)
  blockItems : Reads (blockItems fuel)
  openItems : Reads (openItems fuel)
  blockPairs : Reads (blockPairs fuel)
  flowItems : ∀ first, Reads (flowItems fuel first)
  flowPairs : ∀ first, Reads (flowPairs fuel first)

namespace ReadsWithin

variable {fuel : Nat}

theorem zero : ReadsWithin 0 where
  node _ := .malformed
  blockItems := .malformed
  openItems := .malformed
  blockPairs := .malformed
  flowItems _ := .malformed
  flowPairs _ := .malformed

theorem node_succ (hparts : ReadsWithin fuel) (place : Place) :
    Reads (Grammar.node (fuel + 1) place) := by
  rw [Grammar.node]
  apply reads_peek.bind
  intro first
  split
  · exact reads_advance.bind fun _ => reads_findAnchor _
  · apply reads_properties.bind
    intro properties
    apply reads_peek.bind
    intro next
    apply (reads_checkAnchor _).bind
    intro _
    split
    · exact reads_advance.bind fun _ => reads_addScalar _ _ _
    · exact reads_advance.bind fun _ =>
        reads_addCollection _ ((hparts.flowItems _).bind fun _ => .pure _)
    · exact reads_advance.bind fun _ =>
        reads_addCollection _ ((hparts.flowPairs _).bind fun _ => .pure _)
    · exact reads_addCollection _ (hparts.openItems.bind fun _ => .pure _)
    · exact reads_advance.bind fun _ =>
        reads_addCollection _ (hparts.blockItems.bind fun _ => .pure _)
    · exact reads_advance.bind fun _ =>
        reads_addCollection _ (hparts.blockItems.bind fun _ => .pure _)
    · exact reads_advance.bind fun _ =>
        reads_addCollection _ (hparts.blockPairs.bind fun _ => .pure _)
    · exact reads_advance.bind fun _ =>
        reads_addCollection _ (hparts.blockPairs.bind fun _ => .pure _)
    · exact .ite (reads_addScalar _ _ _) .malformed

theorem blockItems_succ (hparts : ReadsWithin fuel) : Reads (Grammar.blockItems (fuel + 1)) := by
  rw [Grammar.blockItems]
  apply (reads_accept _).bind
  intro _
  apply Reads.ite
  · exact (reads_nodeUnless _ (hparts.node _)).bind fun _ =>
      hparts.blockItems.bind fun _ => .pure _
  · exact (reads_accept _).bind fun _ => .ite (.pure _) .malformed

theorem openItems_succ (hparts : ReadsWithin fuel) : Reads (Grammar.openItems (fuel + 1)) := by
  rw [Grammar.openItems]
  apply (reads_accept _).bind
  intro _
  apply Reads.ite
  · exact (reads_nodeUnless _ (hparts.node _)).bind fun _ =>
      hparts.openItems.bind fun _ => .pure _
  · exact .pure _

theorem blockPairs_succ (hparts : ReadsWithin fuel) : Reads (Grammar.blockPairs (fuel + 1)) := by
  rw [Grammar.blockPairs]
  apply (reads_accept _).bind
  intro _
  apply Reads.ite
  · exact (reads_nodeUnless _ (hparts.node _)).bind fun _ =>
      (reads_optionalValue _ (hparts.node _)).bind fun _ =>
        hparts.blockPairs.bind fun _ => .pure _
  · exact (reads_accept _).bind fun _ => .ite (.pure _) .malformed

theorem flowItems_succ (hparts : ReadsWithin fuel) (first : Bool) :
    Reads (Grammar.flowItems (fuel + 1) first) := by
  rw [Grammar.flowItems]
  apply (reads_flowEnd _ _).bind
  intro _
  apply Reads.ite (.pure _)
  apply (reads_accept _).bind
  intro _
  have hrest (item : Nat) : Reads (do return item :: (← Grammar.flowItems fuel false)) :=
    (hparts.flowItems false).bind fun _ => .pure _
  apply Reads.ite
  · apply (reads_addCollection none _).bind hrest
    exact (reads_nodeUnless _ (hparts.node _)).bind fun _ =>
      (reads_optionalValue _ (hparts.node _)).bind fun _ => .pure _
  · exact (hparts.node _).bind hrest

theorem flowPairs_succ (hparts : ReadsWithin fuel) (first : Bool) :
    Reads (Grammar.flowPairs (fuel + 1) first) := by
  rw [Grammar.flowPairs]
  apply (reads_flowEnd _ _).bind
  intro _
  apply Reads.ite (.pure _)
  apply (reads_accept _).bind
  intro _
  have hrest (pair : Nat × Nat) : Reads (do return pair :: (← Grammar.flowPairs fuel false)) :=
    (hparts.flowPairs false).bind fun _ => .pure _
  apply Reads.ite
  · exact (reads_nodeUnless _ (hparts.node _)).bind fun _ =>
      (reads_optionalValue _ (hparts.node _)).bind fun _ => (Reads.pure _).bind hrest
  · exact (hparts.node _).bind fun _ => (reads_addNode _).bind fun _ => (Reads.pure _).bind hrest

end ReadsWithin

theorem readsWithin (fuel : Nat) : ReadsWithin fuel := by
  induction fuel with
  | zero => exact .zero
  | succ fuel ih =>
      exact ⟨ih.node_succ, ih.blockItems_succ, ih.openItems_succ, ih.blockPairs_succ,
        ih.flowItems_succ, ih.flowPairs_succ⟩

theorem reads_content (fuel : Nat) : Reads (content fuel) := by
  apply reads_peek.bind
  intro next
  split
  · exact reads_addNode _
  · exact reads_addNode _
  · exact .ite (reads_addNode _) ((readsWithin fuel).node _)

theorem reads_root (fuel : Nat) : Reads (root fuel) := by
  apply reads_peek.bind
  intro _
  apply Reads.ite
  · apply Reads.get_bind
    intro state hfailure
    split
    · exact .malformed
    · refine .set_bind hfailure ?_
      exact (reads_accept _).bind fun _ => .ite (reads_content fuel)
        (Reads.malformed.bind fun _ => reads_content fuel)
  · exact (readsWithin fuel).node _

theorem reads_finish (fuel : Nat) : Reads (finish fuel) := by
  induction fuel with
  | zero => exact .malformed
  | succ fuel ih =>
      rw [finish]
      exact (reads_accept _).bind fun _ => .ite ih
        (reads_peek.bind fun _ => .ite .malformed (.pure _))

theorem reads_document (fuel : Nat) : Reads (document fuel) :=
  reads_peek.bind fun _ => .ite (.pure _) ((reads_root fuel).bind fun _ =>
    (reads_finish fuel).bind fun _ => .pure _)

end Grammar

/-- A text has a graph, no node at all or a fault of the text. -/
theorem Graph.composes_ofTokens_ofText (text : List Char) :
    Composes (Graph.ofTokens (TokenStream.ofText text)) := by
  have hfailure : (TokenStream.ofText text).failure.OfText :=
    TokenStream.ofText_failure_ofReader _ _
  generalize TokenStream.ofText text = stream at hfailure
  have hdocument := Grammar.reads_document (3 * stream.tokens.length + 3)
    { tokens := stream.tokens, failure := stream.failure, handles := Grammar.standardHandles }
    hfailure
  unfold Graph.ofTokens
  dsimp only
  generalize (Grammar.document _).run _ = reading at hdocument ⊢
  cases hdocument with
  | ok => exact .ok _
  | error hfault => exact .error hfault

end Stylesheet.Yaml
