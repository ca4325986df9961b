import JobFleet.Proofs.Calendar.Stamp
import JobFleet.Proofs.Fleet.Moves
import JobFleet.Proofs.Fleet.OwnKey
import JobFleet.Proofs.Store.Keys
import JobFleet.Schedule.Cycle

/-!
# One tick key for each minute

The job key of a tick is told by the minute of universal time that the tick falls into, and tells
it: two ticks of one minute are one job to the fleet as long as the first one's status stands and
does not tell of a failure, and to two ticks of different minutes it makes no difference what the
store holds about the other. The keys of the years from 0 to 9999 are in the order of time.
-/

namespace JobFleet

open Calendar (minuteNumber minuteOf)

/-- A second in one of the years that are written with four digits. -/
def FourDigitYear (unix : Int) : Prop := 0 ≤ (minuteOf unix).year ∧ (minuteOf unix).year ≤ 9999

instance (unix : Int) : Decidable (FourDigitYear unix) := inferInstanceAs (Decidable (_ ∧ _))

/-- A hand-in that asks the store while its job's status is known not to be a failure: the key in
question is out of the reach of others, and the hand-in claims only what it may. -/
structure Enqueue.FindsTaken (key : String) (w : World) (e : Enqueue) : Prop where
  runner : ∃ r, w.runners.find? e.runner = some r
  spared : w.Spared key
  taken : ∃ x, w.entry key = some x ∧ x.value ≠ JobStatus.failed.text
  asks : e.phase ≠ .waiting
  free : ∀ held, e.phase = .claiming held → Enqueue.Free held

/-- A hand-in that finds its key taken ends as a duplicate, or the store fails it. -/
theorem Enqueue.FindsTaken.step {w : World} {e : Enqueue}
    (h : e.FindsTaken e.job.key.statusKey w) (self : TaskId) :
    (e.step self w).1 = .ended .duplicate ∨
      (e.step self w).1 = .ended .unavailable ∧ ¬ w.Answers := by
  obtain ⟨r, hr⟩ := h.runner
  obtain ⟨x, hentry, hx⟩ := h.taken
  exact Enqueue.step_taken self hr h.spared hentry hx h.free h.asks

/-- A key is read as the text that it is. -/
theorem ofText_tickText (unix : Int) : JobKey.ofText (tickText unix) = .ok (tickKey unix) := by
  unfold JobKey.ofText
  split
  · rfl
  · rename_i hblank
    rw [isBlank_tickText] at hblank
    cases hblank

/-- Ticks have one key exactly within one minute. -/
theorem tickKey_eq_iff {a b : Int} : tickKey a = tickKey b ↔ minuteNumber a = minuteNumber b := by
  constructor
  · intro h
    have htext : tickText a = tickText b := congrArg JobKey.text h
    exact Calendar.stamp_ofMinuteNumber_inj (append_left_inj htext)
  · intro h
    apply JobKey.ext
    change "parser:autoupdate:" ++ (Calendar.ofMinuteNumber (minuteNumber a)).stamp = tickText b
    rw [h]
    rfl

/-- What follows a common beginning decides the order of two texts. -/
theorem append_lt_append_left {p s t : String} : p ++ s < p ++ t ↔ s < t := by
  rw [String.lt_iff, String.lt_iff, String.toList_append, String.toList_append,
    Calendar.append_lt_append_iff rfl]
  simp only [List.lt_irrefl, true_and, false_or]

/-- The keys of years with four digits sort as their minutes do. -/
theorem tickText_lt_iff {a b : Int} (ha : FourDigitYear a) (hb : FourDigitYear b) :
    tickText a < tickText b ↔ minuteNumber a < minuteNumber b := by
  unfold tickText
  rw [append_lt_append_left]
  exact (Calendar.Minute.stamp_lt_iff (Calendar.ofMinuteNumber_fits (minuteNumber a))
    (Calendar.ofMinuteNumber_fits (minuteNumber b)) ha hb).trans Calendar.number_lt_iff

/-- Ticks have one key exactly if they are of one minute of universal time, and the keys of the
years from 0 to 9999 are in the order of their minutes. Once one tick of a minute has its status
in the store, another one of that minute does not take a job in: it is a duplicate wherever the
store answers. Ticks of other minutes take every step of their hand-in alike, whatever the
status of the first tick's key is. -/
theorem tick_keys_by_minute (a b : Int) :
    JobKey.ofText (tickText a) = .ok (tickKey a) ∧
    (∀ w defaults criticality handler, w.utc = a →
      (Schedule.Cycle.tickJob w defaults criticality handler).key = tickKey a) ∧
    (tickKey a = tickKey b ↔ minuteNumber a = minuteNumber b) ∧
    (FourDigitYear a → FourDigitYear b →
      (tickText a < tickText b ↔ minuteNumber a < minuteNumber b)) ∧
    (minuteNumber a = minuteNumber b → ∀ (w : World) (self : TaskId) (e : Enqueue),
      e.job.key = tickKey b → e.FindsTaken (tickKey a).statusKey w →
      (e.step self w).1 = .ended .duplicate ∨
        (e.step self w).1 = .ended .unavailable ∧ ¬ w.Answers) ∧
    (minuteNumber a ≠ minuteNumber b → ∀ (w v : World) (self : TaskId) (e : Enqueue),
      e.job.key = tickKey b → w.SameBut (tickKey a).statusKey v →
      (e.step self v).1 = (e.step self w).1 ∧
        (e.step self w).2.SameBut (tickKey a).statusKey (e.step self v).2) := by
  refine ⟨ofText_tickText a, ?_, tickKey_eq_iff, tickText_lt_iff, ?_, ?_⟩
  · rintro w defaults criticality handler rfl
    rfl
  · intro hminute w self e hkey htaken
    rw [tickKey_eq_iff.mpr hminute, ← hkey] at htaken
    exact htaken.step self
  · intro hminute w v self e hkey hsame
    refine e.step_same self ?_ hsame
    rw [hkey]
    exact fun h => hminute (tickKey_eq_iff.mp (statusKey_inj h)).symm

/-- A desk with a runner, and what the store holds about the tick of a second. -/
def tickDesk (unix : Int) (held : Option Entry) : World :=
  { World.empty unix with
    runners := (∅ : Table String Runner).insert "desk" (.new .usual ⟨0⟩)
    store := ⟨held.elim ∅ fun x => (∅ : Table String Entry).insert (tickKey unix).statusKey x,
      true, false⟩ }

/-- A tick's hand-in that is about to read the status of its key. -/
def tickHandIn (unix : Int) : Enqueue := ⟨"desk", .new (tickKey unix) 0, .reading⟩

theorem tickDesk_entry (unix : Int) (x : Entry) (h : x.live 0 = true) :
    (tickDesk unix (some x)).entry (tickKey unix).statusKey = some x := by
  change (((∅ : Table String Entry).insert (tickKey unix).statusKey x).find? _).filter _ = _
  rw [Table.find?_insert_self]
  simp [Option.filter, show x.live (tickDesk unix (some x)).now = true from h]

theorem tickDesk_sameBut (unix : Int) (x : Entry) :
    (tickDesk unix none).SameBut (tickKey unix).statusKey (tickDesk unix (some x)) := by
  refine ⟨_, rfl, rfl, ?_⟩
  intro j hj
  change (((∅ : Table String Entry).insert (tickKey unix).statusKey x).find? j).filter _ = _
  rw [Table.find?_insert_of_ne _ _ hj]
  rfl

/-- Two ticks at 14:07 are one job, and one a second later, at 14:08, has a later key and is not
kept from reading an empty key by the first one's status. -/
theorem tick_keys_by_minute_ninthOfMarch :
    tickText 1709993279 = "parser:autoupdate:20240309T1407" ∧
      tickText 1709993279 < tickText 1709993280 ∧
      ((tickHandIn 1709993220).step 7 (tickDesk 1709993279 (some ⟨"succeeded", none⟩))).1 =
        .ended .duplicate ∧
      ((tickHandIn 1709993280).step 7 (tickDesk 1709993279 (some ⟨"succeeded", none⟩))).1 =
        ((tickHandIn 1709993280).step 7 (tickDesk 1709993279 none)).1 := by
  have hsame := tick_keys_by_minute 1709993279 1709993220
  have hlater := tick_keys_by_minute 1709993279 1709993280
  have htaken : (tickHandIn 1709993220).FindsTaken (tickKey 1709993279).statusKey
      (tickDesk 1709993279 (some ⟨"succeeded", none⟩)) :=
    { runner := ⟨_, rfl⟩
      spared := nofun
      taken := ⟨_, tickDesk_entry 1709993279 ⟨"succeeded", none⟩ rfl, by decide⟩
      asks := nofun
      free := nofun }
  refine ⟨by decide +kernel, ?_, ?_, ?_⟩
  · exact (hlater.2.2.2.1 (by decide) (by decide)).mpr (by decide)
  · rcases hsame.2.2.2.2.1 (by decide) _ 7 (tickHandIn 1709993220) rfl htaken with h | ⟨-, h⟩
    · exact h
    · exact absurd ⟨rfl, nofun⟩ h
  · exact (hlater.2.2.2.2.2 (by decide) _ _ 7 (tickHandIn 1709993280) rfl
      (tickDesk_sameBut 1709993279 ⟨"succeeded", none⟩)).1

namespace World

/-- The status that the cycle of a task has reported. -/
def reported? (w : World) (id : TaskId) : Option String :=
  match w.tasks.find? id with
  | some (.ended (.cycle (.finished (.ok s)))) => some s.status
  | _ => none

/-- A scheduler that hands its ticks in to a runner, and a tick whose job is called once and
fails. -/
def failedTick : List Move :=
  [.handler (.scripted "tick" 0 fun _ => [.fail ⟨"down", none⟩]), .runner "desk" .usual,
    .scheduler "s" "sweep" (.ofSecs 90) (.held ⟨true, 60⟩)
      (.runner "desk" ⟨1, .zero⟩ .important 0),
    .launch (.runCycle (.start "s" true)), .step 0, .step 0, .step 0, .step 0, .step 1, .step 1,
    .step 1, .step 1, .step 1, .step 2, .step 2, .step 1, .step 1]

/-- Another tick at the same second. -/
def secondTick : List Move :=
  [.launch (.runCycle (.start "s" true)), .step 3, .step 3, .step 3, .step 3]

/-- The job of a tick fails within its minute; another tick of that minute is taken in as a second
job. -/
theorem failed_tick_repeats :
    History (fun _ _ => True) (around 1709993279 .empty) (failedTick ++ secondTick)
        ((around 1709993279 .empty).after (failedTick ++ secondTick)) ∧
      ((around 1709993279 .empty).after failedTick).reported? 0 = some "enqueued" ∧
      ((around 1709993279 .empty).after failedTick).entry (tickKey 1709993279).statusKey =
        some ⟨"failed", some 86400000000000⟩ ∧
      ((around 1709993279 .empty).after (failedTick ++ secondTick)).utc = 1709993279 ∧
      ((around 1709993279 .empty).after (failedTick ++ secondTick)).reported? 3 =
        some "enqueued" ∧
      (((around 1709993279 .empty).after (failedTick ++ secondTick)).runners.find? "desk").map
        (fun r => r.stats.enqueued) = some 2 :=
  ⟨.of_check (by decide +kernel), by decide +kernel, by decide +kernel, by decide +kernel,
    by decide +kernel, by decide +kernel⟩

end World

end JobFleet
