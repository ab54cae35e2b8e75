import Mathlib.Data.List.Basic
import Stylesheet.Text.Uppercase

/-!
# Letters in upper case

What the upper case of a character can be.  In ASCII a character becomes one character.  Beyond
ASCII it becomes one beyond ASCII, an `I` or an `S`, or else it is a letter of the table of those
that become several.
-/

namespace Stylesheet.Text

theorem upper_cons (c : Char) (text : List Char) : upper (c :: text) = upperChar c ++ upper text :=
  List.flatMap_cons

/-- What holds of all codes of ASCII holds of its characters. -/
theorem forall_ascii {P : Char → Prop} (hcodes : ∀ code < 0x80, P (Char.ofNat code)) {c : Char}
    (hc : c.toNat < 0x80) : P c := by
  have hcode := hcodes c.toNat hc
  rwa [Char.ofNat_toNat] at hcode

theorem upperChar_of_ascii {c : Char} (hc : c.toNat < 0x80) : upperChar c = [c.toUpper] := by
  revert hc
  refine forall_ascii (P := fun c => upperChar c = [c.toUpper]) ?_
  decide +kernel

theorem toNat_ofNat {code : Nat} (hcode : code.isValidChar) : (Char.ofNat code).toNat = code := by
  rw [Char.ofNat, dif_pos hcode]
  rfl

/-- The runs lie beyond ASCII, and so do the letters that they lead to, but for two of them. -/
theorem forall_caseRuns : ∀ run ∈ caseRuns,
    0x80 ≤ run.first + run.distance ∧ run.last + run.distance < 0xD800 ∨
      0xE000 ≤ run.first + run.distance ∧ run.last + run.distance < 0x110000 ∨
      run.first = run.last ∧
        (run.first + run.distance = 'I'.toNat ∨ run.first + run.distance = 'S'.toNat) := by
  decide +kernel

theorem ofNat_of_contains {run : CaseRun} (hrun : run ∈ caseRuns) {code : Nat}
    (hcode : run.contains code = true) :
    let d := Char.ofNat (code + run.distance).toNat
    0x80 ≤ d.toNat ∨ d = 'I' ∨ d = 'S' := by
  simp only [CaseRun.contains, Bool.and_eq_true, decide_eq_true_eq] at hcode
  have hrange : run.first ≤ code ∧ code ≤ run.last := hcode.1
  have hfar (hvalid : (code + run.distance).toNat.isValidChar)
      (hlow : 0x80 ≤ (code + run.distance).toNat) :
      0x80 ≤ (Char.ofNat (code + run.distance).toNat).toNat := by
    rwa [toNat_ofNat hvalid]
  rcases forall_caseRuns run hrun with hlow | hhigh | ⟨hsingle, hletter⟩
  · exact .inl (hfar (.inl (by omega)) (by omega))
  · exact .inl (hfar (.inr (by omega)) (by omega))
  · obtain rfl : code = run.first := by omega
    refine .inr ?_
    rcases hletter with hletter | hletter <;> rw [hletter]
    · exact .inl rfl
    · exact .inr rfl

/-- The upper case of a character beyond ASCII. -/
theorem upperChar_cases {c : Char} (hc : 0x80 ≤ c.toNat) :
    (∃ codes, (c.toNat, codes) ∈ caseExpansions ∧ upperChar c = codes.map Char.ofNat) ∨
      ∃ d, upperChar c = [d] ∧ (0x80 ≤ d.toNat ∨ d = 'I' ∨ d = 'S') := by
  unfold upperChar
  rw [if_neg (Nat.not_lt.mpr hc)]
  split
  · next codes hlookup =>
      obtain ⟨before, after, hsplit, -⟩ := List.lookup_eq_some_iff.mp hlookup
      exact .inl ⟨codes, hsplit ▸ List.mem_append_cons_self, rfl⟩
  · split
    · next run hfind =>
        have hcontains := List.find?_some hfind
        exact .inr ⟨_, rfl, ofNat_of_contains (List.mem_of_find?_eq_some hfind) hcontains⟩
    · exact .inr ⟨c, rfl, .inl hc⟩

end Stylesheet.Text
