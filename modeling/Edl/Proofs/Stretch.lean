/-
What a check reports, as an equation.

A check finds a stretch of a line, and the report is a diagnostic on that stretch.  Making the range
can fail for coordinates from outside, but the stretch of a tidy check fits its line, so that only
the number of the line can be refused.  Here the report is written down for both cases, so that
later statements about a rule need only look at what its check finds.

Main definitions:

* `Edl.Text.Range.stretch` — some characters of a line, by the first of them and their number;
* `Edl.Lint.Finding.range` — the range of a finding that fits its line.

Main results:

* `Edl.Lint.Check.Tidy.report_eq`, `Edl.Lint.Check.Tidy.report_iff` — the report on a line;
* `Edl.Lint.Check.Tidy.report_of_eq_some`, `Edl.Lint.Check.Tidy.report_eq_nil_iff` — the same, with
  a finding and without;
* `Edl.Lint.Check.Tidy.report_of_neg` — the report on a line with a negative number.
-/

import Edl.Proofs.Findings

set_option relaxedAutoImplicit false
set_option autoImplicit false

namespace Edl

/-- The range of `length` characters of a line, from the one at `start` on. -/
def Text.Range.stretch (line start length : Nat) : Range :=
  ⟨⟨line, start⟩, ⟨line, start + length⟩,
    Position.le_iff.2 (.inr ⟨rfl, Nat.le_add_right start length⟩)⟩

theorem Text.Range.onLine_of_neg {number : Int} (h : number < 0) (start stop : Int) :
    onLine number start stop = .error .negativePosition := by
  rw [onLine, Position.ofInts, if_pos (.inl h)]
  rfl

namespace Lint

open Text

/-- The range of a finding on the line with the given number. -/
def Finding.range (f : Finding) (number : Nat) : Range :=
  .stretch number f.start.toNat (f.stop - f.start).toNat

theorem Finding.Fits.place_eq {f : Finding} {line : List Char} (hf : f.Fits line) (number : Nat) :
    f.place number = .ok (f.template.diagnostic (f.range number)) := by
  obtain ⟨template, start, stop⟩ := f
  obtain ⟨hstart, hlt, -⟩ := hf
  dsimp only at hstart hlt
  obtain ⟨start, rfl⟩ := Int.eq_ofNat_of_zero_le hstart
  obtain ⟨length, rfl⟩ : ∃ length : Nat, stop = (start + length : Nat) :=
    ⟨(stop - start).toNat, by omega⟩
  have hlength : (((start + length : Nat) : Int) - start).toNat = length := by omega
  unfold Finding.place Finding.range
  dsimp only
  rw [Range.onLine_natCast (Nat.le_add_right start length), hlength, Int.toNat_natCast]
  rfl

theorem Finding.place_of_neg (f : Finding) {number : Int} (h : number < 0) :
    f.place number = .error .negativePosition := by
  rw [Finding.place, Range.onLine_of_neg h]
  rfl

/-- A tidy check reports what it finds. -/
theorem Check.Tidy.report_eq {check : Check} {code : String} (h : check.Tidy code) (line : String)
    (number : Nat) :
    ∃ found, check line.toList = .ok found ∧
      check.report line number =
        .ok (found.map fun f => f.template.diagnostic (f.range number)).toList := by
  obtain ⟨found, hcheck, hfits⟩ := h line.toList
  refine ⟨found, hcheck, ?_⟩
  cases found with
  | none => exact Check.report_of_none hcheck number
  | some f =>
      rw [Check.report_of_some hcheck, (hfits f rfl).1.place_eq number]
      rfl

theorem Check.Tidy.report_of_eq_some {check : Check} {code : String} (h : check.Tidy code)
    {line : String} {f : Finding} (hf : check line.toList = .ok (some f)) (number : Nat) :
    check.report line number = .ok [f.template.diagnostic (f.range number)] := by
  obtain ⟨found, hcheck, hreport⟩ := h.report_eq line number
  obtain rfl := Except.ok.inj (hcheck.symm.trans hf)
  exact hreport

/-- A tidy check reports nothing on a line in which it finds nothing. -/
theorem Check.Tidy.report_eq_nil_iff {check : Check} {code : String} (h : check.Tidy code)
    (line : String) (number : Nat) :
    check.report line number = .ok [] ↔ ∀ f, check line.toList ≠ .ok (some f) := by
  obtain ⟨found, hcheck, hreport⟩ := h.report_eq line number
  rw [hreport, hcheck]
  cases found with
  | none => simp
  | some f => simp

/-- A tidy check whose only finding on a line, if it has one, is known. -/
theorem Check.Tidy.report_iff {check : Check} {code : String} (h : check.Tidy code) {line : String}
    {reports : Prop} {finding : Finding}
    (hfinds : ∀ f, check line.toList = .ok (some f) ↔ reports ∧ f = finding) (number : Nat) :
    (reports ↔ check.report line number =
      .ok [finding.template.diagnostic (finding.range number)]) ∧
    (¬reports ↔ check.report line number = .ok []) := by
  obtain ⟨found, hcheck, hreport⟩ := h.report_eq line number
  rw [hreport]
  cases found with
  | none =>
      have hnot : ¬reports := by
        intro hreports
        cases hcheck.symm.trans ((hfinds finding).2 ⟨hreports, rfl⟩)
      simp [hnot]
  | some f =>
      obtain ⟨hreports, rfl⟩ := (hfinds f).1 hcheck
      simp [hreports]

/-- On a line with a negative number nothing can be reported. -/
theorem Check.Tidy.report_of_neg {check : Check} {code : String} (h : check.Tidy code)
    (line : String) {number : Int} (hneg : number < 0) :
    ∃ found, check line.toList = .ok found ∧
      check.report line number =
        if found.isSome then .error .negativePosition else .ok [] := by
  obtain ⟨found, hcheck, -⟩ := h line.toList
  refine ⟨found, hcheck, ?_⟩
  cases found with
  | none => exact Check.report_of_none hcheck number
  | some f =>
      rw [Check.report_of_some hcheck, Finding.place_of_neg f hneg]
      rfl

end Lint

end Edl
