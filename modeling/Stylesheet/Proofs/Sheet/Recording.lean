import Stylesheet.Proofs.Recorder.Loading
import Stylesheet.Proofs.Rule.Recording
import Stylesheet.Proofs.Sheet.Causes
import Stylesheet.Proofs.Sheet.Text

/-!
# What loading and reading append to a sink

Loads and reads append diagnostics to a sink, and nothing that is in it, or that there is none,
changes what they give or append.  A diagnostic of a load carries the key of an entry of the
document whose value is its cause, one of a read the key of the rule that is read.
-/

namespace Stylesheet

open Logged

/-- A run appends diagnostics to any sink that it is given, always the same ones, with a property;
with or without a sink, its outcome is the same. -/
def Logged.AppendsOnly {ε α : Type} (x : Logged Event ε α) (P : Diagnostic → Prop) : Prop :=
  ∃ suffix, x.Appends suffix ∧ ∀ d ∈ suffix, P d

theorem Logged.appendsOnly_of_forall_mem {ε α : Type} {x : Logged Event ε α}
    {P : Diagnostic → Prop} (hall : ∀ d ∈ x.diagnostics, P d) : x.AppendsOnly P :=
  ⟨x.diagnostics, x.appends_diagnostics, hall⟩

/-- A document has an entry whose value, somewhere inside it, is the cause of a diagnostic, and the
diagnostic carries the key of the entry. -/
def Node.AccountsFor (root : Node) (provider : Provider) (d : Diagnostic) : Prop :=
  ∃ name node inner, root.HasEntry name node ∧ d.rule = some name ∧ node.Reaches inner ∧
    inner.Causes ⟨provider, some name⟩ d

namespace Sheet

variable {provider : Provider} {d : Diagnostic}

theorem accountsFor_of_mem_diagnostics {root : Node}
    (hd : d ∈ (ofNode provider root).diagnostics) : root.AccountsFor provider d := by
  obtain ⟨name, node, hentry, hd⟩ := exists_entry_of_mem_diagnostics hd
  have hrule := Value.recordsFor_ofNode ⟨provider, some name⟩ node d hd
  obtain ⟨inner, hreaches, hcauses⟩ := Value.exists_causes_of_mem_diagnostics hd
  exact ⟨name, node, inner, hentry, hrule, hreaches, hcauses⟩

/-- What is recorded while a text is loaded is recorded for the document that it describes. -/
theorem exists_root_of_mem_diagnostics {library : Yaml.Library} {text : String}
    (hd : d ∈ (loadWith library provider text).diagnostics) :
    ∃ root, library.read text = .ok (some root) ∧ root.AccountsFor provider d := by
  unfold loadWith at hd
  split at hd
  · cases hd
  · cases hd
  · next root hread =>
      split at hd
      · rw [diagnostics_mapError] at hd
        exact ⟨root, hread, accountsFor_of_mem_diagnostics hd⟩
      · cases hd

/-- The key of the rule that is read: that of the rule if it is there, else the name that is asked
for. -/
def keyRead (sheet : Sheet) (style name : String) : String :=
  ((sheet.rule? style name).map Rule.key).getD name

theorem recordsFor_read? {α : Type} (sheet : Sheet) (accessor : Accessor α) (style name : String) :
    (sheet.read? accessor provider style name).RecordsFor (some (sheet.keyRead style name)) := by
  unfold read? keyRead
  cases sheet.rule? style name with
  | some rule => exact Accessor.recordsFor_read? provider accessor rule
  | none => exact (recordsFor_report rfl).bind fun _ => recordsFor_pure _

theorem recordsFor_read {α : Type} (sheet : Sheet) (accessor : Accessor α) (style name : String)
    (default : α) :
    (sheet.read accessor provider style name default).RecordsFor
      (some (sheet.keyRead style name)) :=
  (recordsFor_read? sheet accessor style name).bind fun _ => recordsFor_pure _

/-- Loading a document or a text and reading a rule, of a sheet or by itself, only append to a sink,
whatever it holds, and what they append and give does not depend on it.  Each diagnostic of a load
carries the key of an entry whose value is its cause, each of a read the key of the rule.  This is
so of the runs that hand on the sink from part to part. -/
theorem diagnostics_appended_and_attributed (provider : Provider) :
    (∀ root, (ofNode provider root).AppendsOnly (root.AccountsFor provider) ∧
      (ofNode provider root).recorded = Recorder.sheetOfNode provider root) ∧
    (∀ library text, ((loadWith library provider text).AppendsOnly fun d =>
        ∃ root, library.read text = .ok (some root) ∧ root.AccountsFor provider d) ∧
      (loadWith library provider text).recorded = Recorder.load provider library text) ∧
    (∀ (α : Type) (accessor : Accessor α) (rule : Rule),
      (((accessor.read? provider rule).AppendsOnly fun d => d.rule = some rule.key) ∧
        (accessor.read? provider rule).recorded = Recorder.read? accessor provider rule) ∧
      ∀ default, ((accessor.read provider rule default).AppendsOnly fun d =>
          d.rule = some rule.key) ∧
        (accessor.read provider rule default).recorded
          = Recorder.read accessor provider rule default) ∧
    (∀ (rule : Rule) (default : Option Plain),
      ((rule.resolve provider default).AppendsOnly fun d => d.rule = some rule.key) ∧
      (rule.resolve provider default).recorded = Recorder.resolveRule provider rule default) ∧
    ∀ (α : Type) (accessor : Accessor α) (sheet : Sheet) (style name : String),
      (((sheet.read? accessor provider style name).AppendsOnly fun d =>
          d.rule = some (sheet.keyRead style name)) ∧
        (sheet.read? accessor provider style name).recorded
          = Recorder.readIn? sheet accessor provider style name) ∧
      ∀ default, ((sheet.read accessor provider style name default).AppendsOnly fun d =>
          d.rule = some (sheet.keyRead style name)) ∧
        (sheet.read accessor provider style name default).recorded
          = Recorder.readIn sheet accessor provider style name default := by
  refine ⟨fun root => ⟨?_, Recorder.recorded_sheetOfNode provider root⟩,
    fun library text => ⟨?_, Recorder.recorded_load provider library text⟩,
    fun α accessor rule => ⟨⟨?_, Recorder.recorded_read? accessor provider rule⟩,
      fun default => ⟨?_, Recorder.recorded_read accessor provider rule default⟩⟩,
    fun rule default => ⟨?_, Recorder.recorded_resolveRule provider rule default⟩,
    fun α accessor sheet style name =>
      ⟨⟨?_, Recorder.recorded_readIn? sheet accessor provider style name⟩,
        fun default => ⟨?_, Recorder.recorded_readIn sheet accessor provider style name default⟩⟩⟩
  · exact appendsOnly_of_forall_mem fun d hd => accountsFor_of_mem_diagnostics hd
  · exact appendsOnly_of_forall_mem fun d hd => exists_root_of_mem_diagnostics hd
  · exact appendsOnly_of_forall_mem (Accessor.recordsFor_read? provider accessor rule)
  · exact appendsOnly_of_forall_mem (Accessor.recordsFor_read provider accessor rule default)
  · exact appendsOnly_of_forall_mem (Rule.recordsFor_resolve provider rule default)
  · exact appendsOnly_of_forall_mem (recordsFor_read? sheet accessor style name)
  · exact appendsOnly_of_forall_mem (recordsFor_read sheet accessor style name default)

/-- The document with a broken condition is loaded with a sink that holds a diagnostic already, and
without a sink: the sheet is the same, and the sink has more behind what it had. -/
theorem diagnostics_appended_and_attributed_broken :
    ∃ suffix, suffix ≠ [] ∧
      (ofNode ({} : Environment).provider brokenDocument).recordIn (some ⟨[noMatch none]⟩)
        = (.ok brokenSheet, some ⟨noMatch none :: suffix⟩) ∧
      (ofNode ({} : Environment).provider brokenDocument).recordIn none = (.ok brokenSheet, none) ∧
      ∀ d ∈ suffix, brokenDocument.AccountsFor ({} : Environment).provider d := by
  obtain ⟨hload, -⟩ := diagnostics_appended_and_attributed ({} : Environment).provider
  obtain ⟨⟨suffix, happends, hall⟩, -⟩ := hload brokenDocument
  have hsheet := ofNode_brokenDocument ({} : Environment).provider
  refine ⟨suffix, ?_, ?_, ?_, hall⟩
  · rw [happends.eq_diagnostics]
    decide +kernel
  · rw [happends.supplied, hsheet]
    rfl
  · rw [happends.without, hsheet]

end Sheet

end Stylesheet
