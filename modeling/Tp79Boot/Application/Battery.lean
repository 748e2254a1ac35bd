import Tp79Boot.Application.State

/-!
# The battery check

`app_bat_check_task` sorts the reading of the battery into levels, counts the
calls that find it on the lowest two, and shuts the radio down after more than
ten of them.
-/

namespace Tp79Boot

/-- `BatLevelValue`. -/
def batLevelValue : List Nat :=
  [2850, 2900, 3080, 3210, 3260, 3350, 3470, 3570, 3670, 3790, 3880, 4100, 5000]

/-- The first level that the reading is below, 13 if there is none. -/
def batLevel (adcValue : UInt16) : Nat :=
  batLevelValue.findIdx fun value => adcValue.toNat < value

/-- The static variables of `app_bat_check_task`. -/
structure Battery where
  curLevel : Nat
  playTimer : UInt32
  times : UInt32
deriving DecidableEq

def Battery.start : Battery :=
  { curLevel := 0
    playTimer := 0xFFFFFFFF
    times := 0 }

/-- The variables afterwards, and whether the device is shut down. -/
def appBatCheckTask (sysTickCnt : UInt32) (adcValue : UInt16)
    (appStatus : AppStatus) (battery : Battery) : Battery × Bool :=
  let read := { battery with curLevel := batLevel adcValue }
  if read.curLevel ≤ 1 ∧ appStatus ≠ .deviceShutdown ∧
      appStatus ≠ .deviceStatusSleep then
    ({ read with times := read.times + 1 }, 10 < read.times)
  else if read.curLevel ≤ 2 then
    if read.playTimer = 0xFFFFFFFF ∨ 600000 < sysTickCnt - read.playTimer then
      ({ read with times := 0, playTimer := sysTickCnt }, false)
    else ({ read with times := 0 }, false)
  else ({ read with times := 0 }, false)

theorem batLevel_le_one_iff (adcValue : UInt16) :
    batLevel adcValue ≤ 1 ↔ adcValue.toNat < 2900 := by
  simp only [batLevel, batLevelValue, List.findIdx_cons]
  by_cases lowest : adcValue.toNat < 2850
  · simp [lowest]
    omega
  · by_cases second : adcValue.toNat < 2900
    · simp [lowest, second]
    · refine iff_of_false ?_ second
      simp only [lowest, second, decide_false, cond_false]
      exact Nat.not_le_of_lt (Nat.succ_lt_succ (Nat.succ_pos _))

/-- A reading above the lowest two levels does not shut down. -/
theorem appBatCheckTask_powered {sysTickCnt : UInt32} {adcValue : UInt16}
    {appStatus : AppStatus} {battery : Battery}
    (powered : 2900 ≤ adcValue.toNat) :
    (appBatCheckTask sysTickCnt adcValue appStatus battery).2 = false := by
  have above : ¬batLevel adcValue ≤ 1 :=
    (batLevel_le_one_iff adcValue).not.mpr (Nat.not_lt_of_le powered)
  unfold appBatCheckTask
  rw [if_neg (fun low => above low.1)]
  split
  · split
    · rfl
    · rfl
  · rfl

end Tp79Boot
