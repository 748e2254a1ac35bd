import Tp79Boot.Application.Battery
import Tp79Boot.Lib.EventRun

/-!
# Runs of the battery check

The counter of low readings is never ahead of the readings: it is at most the
number of calls at the end of the run that all read low.  So the call that
shuts down comes after more than ten of them.
-/

namespace Tp79Boot

open EventRun

/-- What a call of `app_bat_check_task` reads. -/
structure BatteryCall where
  sysTickCnt : UInt32
  adcValue : UInt16
  appStatus : AppStatus

/-- The reading is on the lowest two levels. -/
def BatteryCall.Low (call : BatteryCall) : Prop :=
  call.adcValue.toNat < 2900

instance (call : BatteryCall) : Decidable call.Low :=
  inferInstanceAs (Decidable (_ < _))

def checkBattery (battery : Battery) (call : BatteryCall) : Battery :=
  (appBatCheckTask call.sysTickCnt call.adcValue call.appStatus battery).1

/-- The call shuts the device down. -/
def ShutsDown (battery : Battery) (call : BatteryCall) : Prop :=
  (appBatCheckTask call.sysTickCnt call.adcValue call.appStatus battery).2 =
    true

instance (battery : Battery) (call : BatteryCall) :
    Decidable (ShutsDown battery call) :=
  inferInstanceAs (Decidable (_ = _))

section

variable {battery : Battery} {call : BatteryCall}

theorem checkBattery_restarts (powered : ¬ call.Low) :
    (checkBattery battery call).times = 0 := by
  have above : ¬ batLevel call.adcValue ≤ 1 :=
    (batLevel_le_one_iff call.adcValue).not.mpr powered
  rw [checkBattery, appBatCheckTask, if_neg (fun low => above low.1)]
  split
  · split
    · rfl
    · rfl
  · rfl

theorem checkBattery_times :
    (checkBattery battery call).times = battery.times + 1 ∨
      (checkBattery battery call).times = 0 := by
  rw [checkBattery, appBatCheckTask]
  split
  · exact .inl rfl
  · split
    · split
      · exact .inr rfl
      · exact .inr rfl
    · exact .inr rfl

theorem counted_of_shutsDown (down : ShutsDown battery call) :
    call.Low ∧ 10 < battery.times.toNat := by
  rw [ShutsDown, appBatCheckTask] at down
  split at down
  next low =>
    constructor
    · exact (batLevel_le_one_iff call.adcValue).mp low.1
    · exact UInt32.lt_iff_toNat_lt.mp (of_decide_eq_true down)
  next =>
    split at down
    · split at down
      · cases down
      · cases down
    · cases down

end

/-- How many calls at the end all read low. -/
def lowStreak (calls : List BatteryCall) : Nat :=
  (calls.reverse.takeWhile fun call => decide call.Low).length

theorem lowStreak_concat (calls : List BatteryCall) (last : BatteryCall) :
    lowStreak (calls ++ [last]) =
      if last.Low then lowStreak calls + 1 else 0 := by
  rw [lowStreak, List.reverse_concat, List.takeWhile_cons]
  by_cases low : last.Low
  · simp [low, lowStreak]
  · simp [low]

/-- The calls of the streak are the last ones. -/
theorem low_of_le_lowStreak {calls : List BatteryCall} {count : Nat}
    (enough : count ≤ lowStreak calls) :
    count ≤ calls.length ∧
      ∀ call ∈ calls.drop (calls.length - count), call.Low := by
  induction calls using List.reverseRecOn generalizing count with
  | nil =>
      obtain rfl : count = 0 := Nat.le_zero.mp enough
      exact ⟨Nat.le_refl 0, List.forall_mem_nil _⟩
  | append_singleton calls last induction =>
      rw [lowStreak_concat] at enough
      rw [List.length_append, List.length_singleton]
      cases count with
      | zero =>
          constructor
          · exact Nat.zero_le _
          · intro call member
            rw [Nat.sub_zero, List.drop_of_length_le (by simp)] at member
            cases member
      | succ count =>
          by_cases low : last.Low
          · rw [if_pos low] at enough
            obtain ⟨long, earlier⟩ := induction (Nat.le_of_succ_le_succ enough)
            constructor
            · exact Nat.succ_le_succ long
            · intro call member
              rw [Nat.add_sub_add_right,
                List.drop_append_of_le_length (Nat.sub_le _ _)] at member
              rcases List.mem_append.mp member with before | here
              · exact earlier call before
              · rw [List.mem_singleton.mp here]
                exact low
          · rw [if_neg low] at enough
            exact absurd enough (Nat.not_succ_le_zero count)

theorem times_le_lowStreak (calls : List BatteryCall) :
    (run checkBattery Battery.start calls).times.toNat ≤ lowStreak calls := by
  induction calls using List.reverseRecOn with
  | nil => exact Nat.le_refl 0
  | append_singleton calls last induction =>
      rw [run_concat, lowStreak_concat]
      by_cases low : last.Low
      · rw [if_pos low]
        rcases @checkBattery_times (run checkBattery Battery.start calls) last with
          counted | anew
        · rw [counted, UInt32.toNat_add]
          exact Nat.le_trans (Nat.mod_le _ _) (Nat.succ_le_succ induction)
        · rw [anew]
          exact Nat.zero_le _
      · rw [if_neg low, checkBattery_restarts low]
        exact Nat.le_refl 0

/-- The device is shut down only when this reading and the ten before it are
all low, and a reading that is not low starts the count anew. -/
theorem shutsDown_after_ten_low {calls : List BatteryCall} {call : BatteryCall}
    (down : ShutsDown (run checkBattery Battery.start calls) call) :
    call.Low ∧ 10 ≤ calls.length ∧
      (∀ earlier ∈ calls.drop (calls.length - 10), earlier.Low) ∧
      ∀ battery other, ¬ other.Low → (checkBattery battery other).times = 0 := by
  obtain ⟨low, counted⟩ := counted_of_shutsDown down
  have streak : 10 ≤ lowStreak calls :=
    Nat.le_trans (Nat.le_of_lt counted) (times_le_lowStreak calls)
  obtain ⟨long, earlier⟩ := low_of_le_lowStreak streak
  exact ⟨low, long, earlier, fun _ _ powered => checkBattery_restarts powered⟩

/-- The twelfth of twelve low readings shuts the device down. -/
theorem shutsDown_twelfth :
    let low : BatteryCall :=
      { sysTickCnt := 0, adcValue := 2800, appStatus := .normal }
    ShutsDown (run checkBattery Battery.start (List.replicate 11 low)) low ∧
      low.Low ∧ 10 ≤ (List.replicate 11 low).length := by
  intro low
  have down : ShutsDown
      (run checkBattery Battery.start (List.replicate 11 low)) low := by
    decide
  have bounds := shutsDown_after_ten_low down
  exact ⟨down, bounds.1, bounds.2.1⟩

end Tp79Boot
