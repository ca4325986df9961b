import JobFleet.App.Serve
import JobFleet.Proofs.Json.Yields
import JobFleet.Proofs.Number.ReadBack
import JobFleet.Proofs.Settings.Accepted

/-!
# The parser settings that are accepted

A process takes its parser settings from variables and changes them by requests. Both ways let
through every number of minutes of 64 bits with a sign, and nothing else: what is not positive is
made good when the interval is asked for, and nothing bounds it from above.
-/

namespace JobFleet

open Json (Yields)
open Number (Range readInteger_showInteger showInteger)

/-! ## Variables that set the parser -/

/-- No digit is blank. -/
theorem Text.blank_of_isDigit {c : Char} (h : c.isDigit = true) : blank.contains c = false := by
  have hbounds : 48 ≤ c.toNat ∧ c.toNat ≤ 57 := Char.isDigit_iff_toNat.mp h
  have houtside : ∀ r ∈ blank.ranges, r.2 < 48 ∨ 57 < r.1 := by decide
  rw [← Bool.not_eq_true, CodePoints.contains_iff]
  rintro ⟨r, hr, hlow, hhigh⟩
  rcases houtside r hr with hbelow | habove <;> omega

/-- A text without blanks is its own trimmed form. -/
theorem Text.trim_eq_self {s : String} (h : ∀ c ∈ s.toList, blank.contains c = false) :
    trim s = s := by
  have hkept : ∀ cs : List Char, (∀ c ∈ cs, blank.contains c = false) →
      cs.dropWhile blank.contains = cs := by
    intro cs hcs
    cases cs with
    | nil => rfl
    | cons c cs =>
        rw [List.dropWhile_cons, hcs c List.mem_cons_self]
        rfl
  rw [trim, trimChars, hkept _ h, hkept _ fun c hc => h c (List.mem_reverse.mp hc),
    List.reverse_reverse, String.ofList_toList]

/-- A printed integer has no blank in it. -/
theorem Text.trim_showInteger (n : Int) : trim (showInteger n) = showInteger n := by
  have hdigits : ∀ k, ∀ c ∈ Nat.toDigits 10 k, blank.contains c = false := fun k c hc =>
    blank_of_isDigit (Nat.isDigit_of_mem_toDigits (by decide) (by decide) hc)
  refine trim_eq_self ?_
  cases n with
  | ofNat k =>
      rw [showInteger, String.toList_ofList]
      exact hdigits k
  | negSucc k =>
      rw [showInteger, String.toList_ofList]
      exact List.forall_mem_cons.mpr ⟨by decide, hdigits (k + 1)⟩

/-- The variables that set the parser and nothing else. -/
def Variables.ofParser (p : ParserSettings) : Variables := fun name =>
  if name = "PARSER_AUTOUPDATE_ENABLED" then some (if p.enabled then "true" else "false")
  else if name = "PARSER_UPDATE_INTERVAL_MINUTES" then some (showInteger p.minutes)
  else none

/-- The switch reads back. -/
theorem Variables.flag_ofParser (p : ParserSettings) :
    (ofParser p).flag "PARSER_AUTOUPDATE_ENABLED" false = .ok p.enabled := by
  have hset : ofParser p "PARSER_AUTOUPDATE_ENABLED" =
      some (if p.enabled then "true" else "false") := rfl
  rw [flag, read, value?, hset]
  cases p.enabled <;> rfl

/-- The interval reads back. -/
theorem Variables.integer_ofParser {p : ParserSettings}
    (h : Range.int64.holds p.minutes = true) :
    (ofParser p).integer "PARSER_UPDATE_INTERVAL_MINUTES" .int64 defaultInterval =
      .ok p.minutes := by
  have hread := readInteger_showInteger (r := .int64) (by decide) ((Range.holds_iff _ _).mp h)
  have hset : ofParser p "PARSER_UPDATE_INTERVAL_MINUTES" = some (showInteger p.minutes) := rfl
  have hsome : (showInteger p.minutes).isEmpty = false := by
    cases hempty : (showInteger p.minutes).isEmpty with
    | false => rfl
    | true =>
        rw [String.isEmpty_iff.mp hempty] at hread
        cases hread
  have hvalue : (ofParser p).value? "PARSER_UPDATE_INTERVAL_MINUTES" =
      some (showInteger p.minutes) := by
    rw [value?, hset, Option.map_some, Text.trim_showInteger, Option.filter_some, hsome]
    rfl
  simp only [integer, read, hvalue, hread]

/-- They load with these settings of the parser, however many minutes those ask for. -/
theorem Settings.load_ofParser {p : ParserSettings} (h : Range.int64.holds p.minutes = true) :
    ∃ s, Settings.load (.ofParser p) = .ok s ∧ s.parser = p := by
  unfold Settings.load
  simp only [Variables.flag_ofParser, Variables.integer_ofParser h, bind, Except.bind]
  exact ⟨_, rfl, rfl⟩

/-! ## Requests that change the parser -/

namespace Document

/-- Minutes that a document has given so far are of 64 bits. -/
def ChangeParts.Holds (q : ChangeParts) : Prop :=
  ∀ m? ∈ q.minutes, ∀ m ∈ m?, Range.int64.holds m = true

/-- One more member keeps them so: it is the flag, the minutes themselves or none of them. -/
theorem ChangeParts.member_yields (name : String) (q : ChangeParts) (hq : q.Holds) :
    Yields ChangeParts.Holds (member name q) := by
  intro cs q' rest h
  unfold member at h
  split at h
  · obtain ⟨⟨enabled, rest'⟩, -, h⟩ := bind_eq_ok.mp h
    cases h
    exact hq
  · split at h
    · obtain ⟨⟨minutes, rest'⟩, hminutes, h⟩ := bind_eq_ok.mp h
      cases h
      have hvalue := Json.readOptional_yields (Json.readInteger_yields .int64)
      exact Json.readOnce_yields hvalue _ _ _ _ hminutes
    · obtain ⟨_, -, h⟩ := bind_eq_ok.mp h
      cases h
      exact hq

/-- A change asks for a number of minutes of 64 bits, if for any. -/
theorem readChange_yields :
    Yields (fun c : SettingsChange => ∀ m ∈ c.minutes, Range.int64.holds m = true)
      readChange := by
  have hvalue := Json.readOptional_yields (Json.readInteger_yields .int64)
  refine Json.readRecord_yields ?_ ?_
  · intro cs c rest h
    obtain ⟨⟨enabled, rest'⟩, -, h⟩ := bind_eq_ok.mp h
    obtain ⟨⟨minutes, rest''⟩, hminutes, h⟩ := bind_eq_ok.mp h
    cases h
    exact Json.readNextItem_yields hvalue true _ _ _ hminutes
  · intro cs c rest h
    obtain ⟨⟨parts, rest'⟩, hparts, h⟩ := bind_eq_ok.mp h
    cases h
    have hnone : ChangeParts.Holds {} := fun m? hm => nomatch hm
    have hfold := Json.foldMembers_yields ChangeParts.member_yields (cs.length + 1) false hnone
    exact fun m hm => hfold _ _ _ hparts _ (Option.join_eq_some_iff.mp hm) m rfl

end Document

/-- An update is what the application then holds. -/
theorem World.heldSettings_updateSettings {w : World} {app : String} {p : ParserSettings}
    (h : w.heldSettings app = some p) (next : ParserSettings) :
    (w.updateSettings app next).heldSettings app = some next := by
  unfold heldSettings at h ⊢
  rw [updateSettings, modifyScheduler, Table.find?_modify, if_pos rfl]
  cases hs : w.schedulers.find? app with
  | none =>
      rw [hs] at h
      cases h
  | some s =>
      obtain ⟨lock, source, service, session, gate⟩ := s
      cases source with
      | held => rfl
      | failing =>
          rw [hs] at h
          cases h

/-- A change that is answered for makes of the settings what is then in force. -/
theorem App.applyChange_accepts {w : World} {app : String} {c : Document.SettingsChange}
    {p next : ParserSettings} (hheld : w.heldSettings app = some p)
    (hanswer : (applyChange app c w).1.status = 200)
    (hnext : (applyChange app c w).2.heldSettings app = some next) :
    changed? p c = some next := by
  unfold applyChange at hanswer hnext
  simp only [hheld] at hanswer hnext
  cases hc : changed? p c with
  | none =>
      simp only [hc] at hanswer
      cases hanswer
  | some q =>
      simp only [hc] at hnext
      exact (World.heldSettings_updateSettings hheld q).symm.trans hnext

/-- A request that is answered for holds the document of a change. -/
theorem App.changeSettings_accepts {w : World} {app : String} {r : Http.Request}
    {p next : ParserSettings} (hheld : w.heldSettings app = some p)
    (hanswer : (changeSettings app r w).1.status = 200)
    (hnext : (changeSettings app r w).2.heldSettings app = some next) :
    ∃ c rest, Document.readChange r.body.toList = .ok (c, rest) ∧ changed? p c = some next := by
  revert hanswer hnext
  unfold changeSettings
  split
  · rintro ⟨⟩
  · split
    · split
      · rename_i c rest hread
        exact fun hanswer hnext => ⟨c, rest, hread, applyChange_accepts hheld hanswer hnext⟩
      · rintro ⟨⟩
      · rintro ⟨⟩
    · rintro ⟨⟩

/-! ## Accepted settings -/

/-- Parser settings that a process can have in force: those that it was loaded with, and those that
a request has changed and that were answered for. -/
inductive Accepted : ParserSettings → Prop
  | loaded {vars : Variables} {s : Settings} (h : Settings.load vars = .ok s) : Accepted s.parser
  | changed {w : World} {app : String} {r : Http.Request} {p next : ParserSettings}
      (hp : Accepted p) (hheld : w.heldSettings app = some p)
      (hanswer : (App.changeSettings app r w).1.status = 200)
      (hnext : (App.changeSettings app r w).2.heldSettings app = some next) : Accepted next

/-- Accepted settings ask for a number of minutes of 64 bits. -/
theorem Accepted.holds {p : ParserSettings} (h : Accepted p) :
    Range.int64.holds p.minutes = true := by
  induction h with
  | loaded h =>
      obtain ⟨-, -, -, -, hminutes, -⟩ := Settings.load_reads h
      exact (Range.holds_iff _ _).mpr
        (Variables.integer_sets (by decide) (by decide) hminutes).2
  | changed hp hheld hanswer hnext ih =>
      obtain ⟨c, rest, hread, hchanged⟩ := App.changeSettings_accepts hheld hanswer hnext
      have hc := Document.readChange_yields _ _ _ hread
      unfold App.changed? at hchanged
      split at hchanged
      · rename_i m hm
        split at hchanged
        · cases hchanged
        · cases hchanged
          exact hc m hm
      · cases hchanged
        exact ih

/-- Settings are accepted with every number of minutes of 64 bits and with no other. -/
theorem accepted_iff {p : ParserSettings} :
    Accepted p ↔ Range.int64.holds p.minutes = true := by
  constructor
  · exact Accepted.holds
  · intro h
    obtain ⟨s, hload, rfl⟩ := Settings.load_ofParser h
    exact .loaded hload

/-- Their interval is below `2 ^ 63` minutes. -/
theorem Accepted.interval_lt {p : ParserSettings} (h : Accepted p) :
    p.interval < 9223372036854775808 := by
  have hholds := (Range.holds_iff _ _).mp h.holds
  have hhigh : p.minutes ≤ 9223372036854775807 := hholds.2
  unfold ParserSettings.interval
  split
  · omega
  · decide

end JobFleet
