/-
What can be read off a printed finding.

A finding is printed on one line: a place, a severity, a message and a code, each with its own mark
behind or around it.  A message may hold the same marks, so the line is not read from left to right
alone.  The two numbers of the place and the severity hold no colon, hence end at the first colon
that comes; the code holds no opening bracket, hence begins behind the last one.  What remains
between them is the message, whatever it holds.

Main definitions:

* `Edl.Diagnostic.lead`, `Edl.Diagnostic.tail` — the parts of a printed finding in front of its
  place and behind its severity.

Main results:

* `Edl.append_cons_inj_of_first`, `Edl.append_cons_inj_of_last` — a text is cut in one way at the
  first mark, and in one way at the last;
* `Edl.Diagnostic.toList_render` — the characters of a printed finding;
* `Edl.Diagnostic.text_lines_are_unambiguous` — **a printed finding determines what it shows**.
-/

import Edl.Diagnostic.Report
import Edl.Proofs.Findings
import Edl.Proofs.Lines

set_option relaxedAutoImplicit false
set_option autoImplicit false

namespace Edl

/-! ### Cutting at a mark -/

section

open Text

variable {mark : Char} {front front' back back' : List Char}

/-- There is one way to cut a text at the first mark. -/
theorem append_cons_inj_of_first (hfront : mark ∉ front) (hfront' : mark ∉ front')
    (h : front ++ mark :: back = front' ++ mark :: back') : front = front' ∧ back = back' := by
  have hpieces := congrArg (cutAt mark) h
  rw [cutAt_append, cutAt_append, cutAt_of_not_mem hfront, cutAt_of_not_mem hfront',
    List.singleton_append, List.singleton_append, List.cons.injEq] at hpieces
  obtain rfl := hpieces.1
  exact ⟨rfl, (List.cons.inj (List.append_cancel_left h)).2⟩

/-- There is one way to cut a text at the last mark. -/
theorem append_cons_inj_of_last (hback : mark ∉ back) (hback' : mark ∉ back')
    (h : front ++ mark :: back = front' ++ mark :: back') : front = front' ∧ back = back' := by
  have hreverse : back.reverse ++ mark :: front.reverse =
      back'.reverse ++ mark :: front'.reverse := by
    simpa using congrArg List.reverse h
  obtain ⟨hb, hf⟩ :=
    append_cons_inj_of_first (by simpa using hback) (by simpa using hback') hreverse
  exact ⟨List.reverse_inj.1 hf, List.reverse_inj.1 hb⟩

end

/-! ### Numbers and severities -/

theorem toList_toString (n : Nat) : (toString n).toList = Nat.toDigits 10 n := by
  rw [Nat.toString_eq_ofList_toDigits, String.toList_ofList]

/-- A number in decimal holds digits only. -/
theorem isDigit_of_mem_toString {n : Nat} {c : Char} (h : c ∈ (toString n).toList) :
    c.isDigit = true := by
  rw [toList_toString] at h
  exact Nat.isDigit_of_mem_toDigits (by decide) (by decide) h

/-- A number is read back from its decimal digits. -/
theorem ofDigitChars_toString (n : Nat) : Nat.ofDigitChars 10 (toString n).toList 0 = n := by
  rw [toList_toString, Nat.ofDigitChars_ten_toDigits]

theorem eq_of_toString {m n : Nat} (h : (toString m).toList = (toString n).toList) : m = n := by
  rw [← ofDigitChars_toString m, h, ofDigitChars_toString]

theorem colon_not_mem_toString (n : Nat) : ':' ∉ (toString n).toList := by
  intro h
  exact absurd (isDigit_of_mem_toString h) (by decide)

namespace Severity

variable {s s' : Severity}

theorem Counted.colon_not_mem (h : s.Counted) : ':' ∉ s.name.toList := by
  rcases h with rfl | rfl | rfl <;> decide

/-- The severities that are counted have names of their own. -/
theorem Counted.eq_of_name (h : s.Counted) (h' : s'.Counted) (hname : s.name = s'.name) :
    s = s' := by
  rcases h with rfl | rfl | rfl <;> rcases h' with rfl | rfl | rfl <;>
    first | rfl | exact absurd hname (by decide)

end Severity

/-! ### Printed findings -/

namespace Diagnostic

/-- The characters in front of a printed place. -/
def lead : Option String → List Char
  | some path => path.toList ++ [':']
  | none => []

/-- The message and the code of a printed finding. -/
def tail (d : Diagnostic) : List Char :=
  ' ' :: d.message.toList ++ ' ' :: '[' :: (d.code.toList ++ [']'])

/-- The characters of a printed finding. -/
theorem toList_render (d : Diagnostic) (path : Option String) :
    (d.render path).toList = lead path ++ ((toString (d.range.start.line + 1)).toList ++ ':' ::
      ((toString (d.range.start.character + 1)).toList ++ ':' ::
        ((' ' :: d.severity.name.toList) ++ ':' :: d.tail))) := by
  cases path with
  | none => simp [render, lead, tail, String.toList_append]
  | some path => simp [render, lead, tail, String.toList_append]

variable {d e : Diagnostic}

/-- The code begins behind the last opening bracket. -/
theorem eq_of_tail_eq (hd : '[' ∉ d.code.toList) (he : '[' ∉ e.code.toList) (h : d.tail = e.tail) :
    d.message = e.message ∧ d.code = e.code := by
  have hmarks : ∀ {code : String}, '[' ∉ code.toList → '[' ∉ code.toList ++ [']'] := by
    intro code hcode
    simp [hcode]
  have hcut : (d.message.toList ++ [' ']) ++ '[' :: (d.code.toList ++ [']']) =
      (e.message.toList ++ [' ']) ++ '[' :: (e.code.toList ++ [']']) := by
    simpa [tail] using h
  obtain ⟨hmessage, hcode⟩ := append_cons_inj_of_last (hmarks hd) (hmarks he) hcut
  exact ⟨String.toList_inj.1 (List.append_cancel_right hmessage),
    String.toList_inj.1 (List.append_cancel_right hcode)⟩

/-- **A printed finding determines what it shows.**  Findings of counted severities whose codes hold
no opening bracket are printed alike, with or without a path, only if place, severity, message and
code are the same. -/
theorem text_lines_are_unambiguous (path : Option String) (hd : d.severity.Counted)
    (he : e.severity.Counted) (hdcode : '[' ∉ d.code.toList) (hecode : '[' ∉ e.code.toList) :
    d.render path = e.render path ↔
      d.range.start.line = e.range.start.line ∧
        d.range.start.character = e.range.start.character ∧ d.severity = e.severity ∧
        d.message = e.message ∧ d.code = e.code := by
  constructor
  · intro h
    have hchars := congrArg String.toList h
    rw [toList_render, toList_render] at hchars
    -- the two numbers and the severity end at the first colon that comes
    obtain ⟨hline, hrest⟩ := append_cons_inj_of_first (colon_not_mem_toString _)
      (colon_not_mem_toString _) (List.append_cancel_left hchars)
    obtain ⟨hcharacter, hrest⟩ := append_cons_inj_of_first (colon_not_mem_toString _)
      (colon_not_mem_toString _) hrest
    obtain ⟨hseverity, htail⟩ := append_cons_inj_of_first (by simp [hd.colon_not_mem])
      (by simp [he.colon_not_mem]) hrest
    obtain ⟨hmessage, hcode⟩ := eq_of_tail_eq hdcode hecode htail
    have hname := String.toList_inj.1 (List.cons.inj hseverity).2
    exact ⟨Nat.succ.inj (eq_of_toString hline), Nat.succ.inj (eq_of_toString hcharacter),
      hd.eq_of_name he hname, hmessage, hcode⟩
  · intro h
    obtain ⟨hline, hcharacter, hseverity, hmessage, hcode⟩ := h
    simp only [render, hline, hcharacter, hseverity, hmessage, hcode]

/-- A message may look like the rest of a line, and a severity like the start of a message. -/
theorem text_lines_are_unambiguous_warning :
    let place : Text.Range := ⟨⟨0, 0⟩, ⟨0, 1⟩, by decide⟩
    let d : Diagnostic := { code := "b", message := "warning: x [a]", range := place }
    let e : Diagnostic := { code := "b", message := "x [a]", range := place, severity := .warning }
    d.render (some "1:1: error") = "1:1: error:1:1: error: warning: x [a] [b]" ∧
      d.severity.Counted ∧ e.severity.Counted ∧ '[' ∉ d.code.toList ∧ '[' ∉ e.code.toList ∧
      d.render (some "1:1: error") ≠ e.render (some "1:1: error") := by
  intro place d e
  have hd : d.severity.Counted := .inl rfl
  have he : e.severity.Counted := .inr (.inl rfl)
  have hcode : '[' ∉ d.code.toList := by decide
  refine ⟨by decide +kernel, hd, he, hcode, hcode, fun h => ?_⟩
  obtain ⟨-, -, hseverity, -⟩ := (text_lines_are_unambiguous _ hd he hcode hcode).1 h
  cases hseverity

-- with a bracket in the code, one line can stand for two findings
example :
    let place : Text.Range := ⟨⟨0, 0⟩, ⟨0, 1⟩, by decide⟩
    ({ code := "b", message := "x [a]", range := place } : Diagnostic).render =
      ({ code := "a] [b", message := "x", range := place } : Diagnostic).render := by
  decide +kernel

end Diagnostic

end Edl
