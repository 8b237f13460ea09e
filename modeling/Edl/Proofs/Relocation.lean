/-
Scanning a text part by part.

A rule that is made from a check looks at a line only, and uses the number of the line for nothing
but the place of what it finds.  So the findings in a text do not change when the text is moved down
by some lines, except that they move with it; and scanning two texts with a line feed between them
is scanning each and moving the findings in the second below the first.  Replacing a line therefore
changes nothing but the findings on that line.

Main definitions:

* `Edl.Diagnostic.down` — a diagnostic moved down by some lines;
* `Edl.Lint.Rule.Relocates` — a rule whose findings move with the line;
* `Edl.Lint.Outcome.above` — the outcome for one text above that for another.

Main results:

* `Edl.Lint.relocates_ofCheck` — rules that are made from checks relocate;
* `Edl.Lint.scanLines_add`, `Edl.Lint.scanLines_append` — scanning from another line on, and in
  two parts;
* `Edl.Lint.run_append` — **scanning is a homomorphism**, whatever the rules, if they relocate;
* `Edl.Lint.default_scan_is_local` — the same for the built-in rules, and **replacing a line changes
  only the findings on it**.
-/

import Edl.Proofs.Lines
import Edl.Proofs.Placement

set_option relaxedAutoImplicit false
set_option autoImplicit false

namespace Edl

/-! ### Moving down -/

namespace Text

/-- The position some lines further down. -/
def Position.down (k : Nat) (p : Position) : Position :=
  ⟨p.line + k, p.character⟩

theorem Position.down_le_down_iff {k : Nat} {p q : Position} : p.down k ≤ q.down k ↔ p ≤ q := by
  simp only [le_iff, down]
  omega

/-- The range some lines further down. -/
def Range.down (k : Nat) (r : Range) : Range where
  start := r.start.down k
  stop := r.stop.down k
  ordered := Position.down_le_down_iff.2 r.ordered

theorem Position.ofInts_add (line k : Nat) (character : Int) :
    ofInts (line + k : Nat) character = (ofInts line character).map (down k) := by
  unfold ofInts
  by_cases hc : character < 0
  · rw [if_pos (.inr hc), if_pos (.inr hc)]
    rfl
  · rw [if_neg (by omega), if_neg (by omega)]
    rfl

theorem Range.between_down (k : Nat) (p q : Position) :
    between (p.down k) (q.down k) = (between p q).map (down k) := by
  unfold between
  by_cases hle : p ≤ q
  · rw [dif_pos hle, dif_pos (Position.down_le_down_iff.2 hle)]
    rfl
  · rw [dif_neg hle, dif_neg (mt Position.down_le_down_iff.1 hle)]
    rfl

/-- A range on a line further down is the range on the line, moved down. -/
theorem Range.onLine_add (line k : Nat) (start stop : Int) :
    onLine (line + k : Nat) start stop = (onLine line start stop).map (down k) := by
  unfold onLine
  rw [Position.ofInts_add, Position.ofInts_add]
  cases Position.ofInts line start with
  | error f => rfl
  | ok first =>
      cases Position.ofInts line stop with
      | error f => rfl
      | ok last => exact between_down k first last

end Text

/-- The diagnostic some lines further down. -/
def Diagnostic.down (k : Nat) (d : Diagnostic) : Diagnostic :=
  { d with range := d.range.down k }

namespace Lint

open Text

/-! ### Rules that relocate -/

/-- The rule finds the same on a line wherever it stands, and reports it there. -/
def Rule.Relocates (rule : Rule) : Prop :=
  ∀ (line : String) (number k : Nat),
    rule.run line (number + k : Nat) = (rule.run line number).map (List.map (Diagnostic.down k))

theorem Finding.place_add (f : Finding) (number k : Nat) :
    f.place (number + k : Nat) = (f.place number).map (Diagnostic.down k) := by
  unfold place
  rw [Range.onLine_add]
  cases Range.onLine number f.start f.stop <;> rfl

/-- Rules that are made from checks relocate. -/
theorem relocates_ofCheck {code name domain confidence : String} {check : Check} :
    (Rule.ofCheck code name domain confidence check).Relocates := by
  intro line number k
  change check.report line (number + k : Nat) = (check.report line number).map _
  cases hcheck : check line.toList with
  | error fault =>
      rw [Check.report, Check.report, hcheck]
      rfl
  | ok found =>
      cases found with
      | none =>
          rw [Check.report_of_none hcheck, Check.report_of_none hcheck]
          rfl
      | some f =>
          rw [Check.report_of_some hcheck, Check.report_of_some hcheck, Finding.place_add]
          cases f.place number <;> rfl

theorem relocates_defaultRules : ∀ rule ∈ defaultRules, rule.Relocates := by
  intro rule hrule
  simp only [defaultRules, List.mem_cons, List.not_mem_nil, or_false] at hrule
  rcases hrule with rfl | rfl | rfl | rfl | rfl | rfl | rfl | rfl <;> exact relocates_ofCheck

/-! ### Scanning from another line on -/

section

variable {rules : List Rule}

theorem scanLine_add (h : ∀ rule ∈ rules, rule.Relocates) (line : String) (number k : Nat) :
    scanLine line (number + k) rules =
      (scanLine line number rules).map (List.map (Diagnostic.down k)) := by
  induction rules with
  | nil => rfl
  | cons rule rules ih =>
      rw [scanLine, scanLine, h rule (List.mem_cons_self ..) line number k,
        ih fun r hr => h r (List.mem_cons_of_mem _ hr)]
      cases rule.run line number with
      | error f => rfl
      | ok found =>
          cases scanLine line number rules with
          | error f => rfl
          | ok others => exact congrArg Except.ok List.map_append.symm

/-- Lines that stand further down have the same findings, further down. -/
theorem scanLines_add (h : ∀ rule ∈ rules, rule.Relocates) (number k : Nat) (lines : List String) :
    scanLines rules (number + k) lines =
      (scanLines rules number lines).map (List.map (Diagnostic.down k)) := by
  induction lines generalizing number with
  | nil => rfl
  | cons line lines ih =>
      rw [scanLines, scanLines, scanLine_add h, Nat.add_right_comm, ih]
      cases scanLine line number rules with
      | error f => rfl
      | ok found =>
          cases scanLines rules (number + 1) lines with
          | error f => rfl
          | ok others => exact congrArg Except.ok List.map_append.symm

/-- Lines are scanned in two parts as they are scanned in one. -/
theorem scanLines_append (rules : List Rule) (number : Nat) (above below : List String) :
    scanLines rules number (above ++ below) = (do
      let found ← scanLines rules number above
      let others ← scanLines rules (number + above.length) below
      return found ++ others) := by
  induction above generalizing number with
  | nil =>
      rw [List.nil_append, scanLines, List.length_nil, Nat.add_zero]
      cases scanLines rules number below <;> rfl
  | cons line above ih =>
      have hnumber : number + 1 + above.length = number + (line :: above).length := by
        rw [List.length_cons]
        omega
      rw [List.cons_append, scanLines, scanLines, ih, hnumber]
      cases scanLine line number rules with
      | error f => rfl
      | ok found =>
          cases scanLines rules (number + 1) above with
          | error f => rfl
          | ok more =>
              cases scanLines rules (number + (line :: above).length) below with
              | error f => rfl
              | ok others => exact congrArg Except.ok (List.append_assoc ..).symm

end

/-! ### Texts above each other -/

/-- The outcome for a text above another, from the outcomes for both. -/
def Outcome.above (o p : Outcome) : Outcome where
  enabled := o.enabled && p.enabled
  lineCount := o.lineCount + p.lineCount
  diagnostics := o.diagnostics ++ p.diagnostics.map (Diagnostic.down o.lineCount)

/-- **Scanning is a homomorphism**: a line feed between texts becomes `Outcome.above`.  If scanning
fails, it fails as scanning the first text does, or else the second. -/
theorem run_append {rules : List Rule} (h : ∀ rule ∈ rules, rule.Relocates)
    (hrules : checkRules rules = .ok ()) (settings : Config.Settings) (a b : String) :
    run (a ++ "\n" ++ b) settings rules = (do
      let o ← run a settings rules
      let p ← run b settings rules
      return o.above p) := by
  cases hlinting : settings.linting with
  | false =>
      simp only [run_of_not_linting hlinting]
      rfl
  | true =>
      have hbelow := scanLines_add h 0 (splitLines a).length (splitLines b)
      simp only [run_of_linting hlinting hrules]
      rw [splitLines_append, scanLines_append, hbelow, List.length_append]
      cases scanLines rules 0 (splitLines a) with
      | error f => rfl
      | ok found => cases scanLines rules 0 (splitLines b) <;> rfl

/-! ### Replacing a line -/

/-- With tidy rules, the findings in a text are those above a line, on it and below it, and each of
the three depends on those lines only. -/
theorem scanLines_around {rules : List Rule} (h : ∀ rule ∈ rules, rule.Tidy)
    (hcodes : (rules.map Rule.code).Nodup) (above below : List String) :
    ∃ before after, (∀ d ∈ before, d.range.start.line < above.length ∧
        d.range.stop.line < above.length) ∧
      (∀ d ∈ after, above.length < d.range.start.line ∧ above.length < d.range.stop.line) ∧
      ∀ line, ∃ here, scanLines rules 0 (above ++ line :: below) =
          .ok (before ++ here ++ after) ∧
        ∀ d ∈ here, d.range.start.line = above.length ∧ d.range.stop.line = above.length := by
  obtain ⟨before, habove, hbefore, -⟩ := scanLines_of_tidy h hcodes 0 above
  obtain ⟨after, hbelow, hafter, -⟩ := scanLines_of_tidy h hcodes (above.length + 1) below
  refine ⟨before, after, fun d hd => ?_, fun d hd => ?_, fun line => ?_⟩
  · obtain ⟨-, -, k, line, hk, hmarks⟩ := hbefore d hd
    obtain ⟨hlt, -⟩ := List.getElem?_eq_some_iff.1 hk
    rw [hmarks.start_line, hmarks.stop_line]
    omega
  · obtain ⟨-, -, k, line, -, hmarks⟩ := hafter d hd
    rw [hmarks.start_line, hmarks.stop_line]
    omega
  · obtain ⟨here, hline, -, hhere⟩ := scanLine_of_tidy h line above.length
    refine ⟨here, ?_, fun d hd => ⟨(hhere d hd).2.start_line, (hhere d hd).2.stop_line⟩⟩
    rw [scanLines_append, habove, Nat.zero_add, scanLines, hline, hbelow]
    exact congrArg Except.ok (List.append_assoc ..).symm

/-- **The findings in a text are local.**  With linting switched on, scanning with the built-in
rules turns a line feed between two texts into the concatenation of their findings, those of the
second moved down by the lines of the first.  So when a line is replaced by another, what is found
above and below it stays as it is and where it is. -/
theorem default_scan_is_local {settings : Config.Settings} (hlinting : settings.linting = true) :
    (∀ a b : String, ∃ o p q, run a settings defaultRules = .ok o ∧
      run b settings defaultRules = .ok p ∧ run (a ++ "\n" ++ b) settings defaultRules = .ok q ∧
      q.diagnostics = o.diagnostics ++ p.diagnostics.map (Diagnostic.down o.lineCount) ∧
      q.lineCount = o.lineCount + p.lineCount) ∧
    ∀ (text line : String) (k : Nat), k < (splitLines text).length → '\n' ∉ line.toList →
      ∃ o p, run text settings defaultRules = .ok o ∧
        run (joinLines ((splitLines text).set k line)) settings defaultRules = .ok p ∧
        p.lineCount = o.lineCount ∧
        ∃ above old new below, o.diagnostics = above ++ old ++ below ∧
          p.diagnostics = above ++ new ++ below ∧
          (∀ d ∈ above, d.range.start.line < k ∧ d.range.stop.line < k) ∧
          (∀ d ∈ old ++ new, d.range.start.line = k ∧ d.range.stop.line = k) ∧
          ∀ d ∈ below, k < d.range.start.line ∧ k < d.range.stop.line := by
  have hrun : ∀ text, ∃ o, run text settings defaultRules = .ok o := by
    intro text
    obtain ⟨found, hscan, -⟩ := scanLines_of_tidy tidy_defaultRules nodup_code_defaultRules 0
      (splitLines text)
    rw [run_of_linting hlinting checkRules_defaultRules, hscan]
    exact ⟨_, rfl⟩
  constructor
  · intro a b
    obtain ⟨o, ho⟩ := hrun a
    obtain ⟨p, hp⟩ := hrun b
    have happend := run_append relocates_defaultRules checkRules_defaultRules settings a b
    rw [ho, hp] at happend
    exact ⟨o, p, o.above p, ho, hp, happend, rfl, rfl⟩
  · intro text line k hk hline
    -- the lines above the replaced one, and those below it
    have hlines : splitLines text =
        (splitLines text).take k ++ (splitLines text)[k] :: (splitLines text).drop (k + 1) := by
      rw [List.getElem_cons_drop, List.take_append_drop]
    have hset : (splitLines text).set k line =
        (splitLines text).take k ++ line :: (splitLines text).drop (k + 1) := by
      rw [List.set_eq_take_append_cons_drop, if_pos hk]
    have hsplit : splitLines (joinLines ((splitLines text).set k line)) =
        (splitLines text).set k line := by
      refine splitLines_joinLines (by simpa using splitLines_ne_nil text) fun other hother => ?_
      rcases List.mem_or_eq_of_mem_set hother with hold | rfl
      · exact not_mem_of_mem_splitLines hold
      · exact hline
    have hlength : ((splitLines text).take k).length = k := by
      rw [List.length_take]
      omega
    obtain ⟨above, below, habove, hbelow, haround⟩ := scanLines_around tidy_defaultRules
      nodup_code_defaultRules ((splitLines text).take k) ((splitLines text).drop (k + 1))
    rw [hlength] at habove hbelow haround
    obtain ⟨old, hold, holdline⟩ := haround (splitLines text)[k]
    obtain ⟨new, hnew, hnewline⟩ := haround line
    rw [← hlines] at hold
    rw [← hset] at hnew
    simp only [run_of_linting hlinting checkRules_defaultRules, hsplit, hold, hnew]
    refine ⟨_, _, rfl, rfl, List.length_set, above, old, new, below, rfl, rfl, habove, ?_, hbelow⟩
    intro d hd
    rcases List.mem_append.1 hd with hd | hd
    · exact holdline d hd
    · exact hnewline d hd

theorem default_scan_is_local_event :
    ({} : Config.Settings).linting = true ∧
      (∃ o p q, run "event X" {} defaultRules = .ok o ∧ run "x \n" {} defaultRules = .ok p ∧
        run ("event X" ++ "\n" ++ "x \n") {} defaultRules = .ok q ∧
        q.diagnostics = o.diagnostics ++ p.diagnostics.map (Diagnostic.down o.lineCount) ∧
        q.diagnostics.map Diagnostic.code = ["invalid-event-name", "trailing-whitespace"]) ∧
      1 < (splitLines "event X\nx \n").length ∧ '\n' ∉ "emit()".toList ∧
      ∃ p above new below,
        run (joinLines ((splitLines "event X\nx \n").set 1 "emit()")) {} defaultRules = .ok p ∧
        p.diagnostics = above ++ new ++ below ∧
        p.diagnostics.map Diagnostic.code = ["invalid-event-name", "missing-semicolon"] ∧
        ∀ d ∈ above, d.range.start.line < 1 := by
  have hlinting : ({} : Config.Settings).linting = true := rfl
  have hk : 1 < (splitLines "event X\nx \n").length := by decide
  have hline : '\n' ∉ "emit()".toList := by decide
  obtain ⟨happend, hreplace⟩ := default_scan_is_local hlinting
  obtain ⟨o, p, q, ho, hp, hq, hfound, -⟩ := happend "event X" "x \n"
  obtain ⟨-, p', -, hp', -, above, -, new, below, -, hfound', habove, -⟩ :=
    hreplace "event X\nx \n" "emit()" 1 hk hline
  have hcodes : (run ("event X" ++ "\n" ++ "x \n") {} defaultRules).map
      (·.diagnostics.map Diagnostic.code) =
        .ok ["invalid-event-name", "trailing-whitespace"] := rfl
  have hcodes' : (run (joinLines ((splitLines "event X\nx \n").set 1 "emit()")) {}
      defaultRules).map (·.diagnostics.map Diagnostic.code) =
        .ok ["invalid-event-name", "missing-semicolon"] := rfl
  rw [hq] at hcodes
  rw [hp'] at hcodes'
  exact ⟨hlinting, ⟨o, p, q, ho, hp, hq, hfound, Except.ok.inj hcodes⟩, hk, hline, p', above, new,
    below, hp', hfound', Except.ok.inj hcodes', fun d hd => (habove d hd).1⟩

end Lint

end Edl
