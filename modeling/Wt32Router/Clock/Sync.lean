import Mathlib.Data.Nat.Notation
import Mathlib.Logic.Basic

/-!
# The time of the last sync, in RTC memory

`main/clock_time.c` keeps when it last heard from an NTP server in a block of its own, "complement
pairs and a separate magic gate, copied from" the one of `reset_log.c`. The time has 64 bits and
is written as two words.

The magic is stored last, "so a reset landing mid-update leaves the block invalid rather than
half-written and believed". That is so for the first sync after power-on. From the second on the
magic is there from the start, each half passes its own check as soon as it is written, and a
reset between the two leaves a time made of both.

> **`cut_ok_iff`**: a reset leaves no time, the previous one or the new one, wherever it comes,
> exactly if no earlier sync stands in the block or one of the two halves stays as it is (or
> what the two halves make is 0, which is no time).
-/

namespace Wt32Router
namespace Clock

/-- `CLOCK_TIME_RTC_MAGIC`. -/
def rtcMagic : BitVec 32 := 0x434C4B31

/-- `clock_time_rtc_t`. -/
structure Rtc where
  magic : BitVec 32
  synced : BitVec 32
  syncedInv : BitVec 32
  syncLo : BitVec 32
  syncLoInv : BitVec 32
  syncHi : BitVec 32
  syncHiInv : BitVec 32
deriving DecidableEq, Repr

/-- `rtc_valid`. -/
def Rtc.valid (r : Rtc) : Bool :=
  r.magic == rtcMagic && r.synced == ~~~r.syncedInv && r.syncLo == ~~~r.syncLoInv &&
    r.syncHi == ~~~r.syncHiInv

/-- A `time_t` of two words. -/
def join (hi lo : BitVec 32) : BitVec 64 := (hi.setWidth 64 <<< 32) ||| lo.setWidth 64

def loWord (w : BitVec 64) : BitVec 32 := (w &&& 0xffffffff).setWidth 32

def hiWord (w : BitVec 64) : BitVec 32 := (w >>> 32).setWidth 32

/-- `rtc_note_sync`, store by store. A complement is of what the word then holds. -/
def rtcNoteSync (w : BitVec 64) : List (Rtc → Rtc) :=
  [fun r => { r with syncLo := loWord w },
    fun r => { r with syncLoInv := ~~~r.syncLo },
    fun r => { r with syncHi := hiWord w },
    fun r => { r with syncHiInv := ~~~r.syncHi },
    fun r => { r with synced := 1 },
    fun r => { r with syncedInv := ~~~r.synced },
    fun r => { r with magic := rtcMagic }]

/-- `rtc_last_sync`; 0 is no time. -/
def Rtc.lastSync (r : Rtc) : BitVec 64 :=
  if !r.valid || r.synced == 0 then 0 else join r.syncHi r.syncLo

/-- What a reset after so many stores of `rtc_note_sync` leaves. -/
def Rtc.cut (r : Rtc) (w : BitVec 64) (stores : Nat) : Rtc :=
  ((rtcNoteSync w).take stores).foldl (fun r store => store r) r

/-- No time, the previous one or the new one, wherever the reset comes. -/
def Rtc.CutOk (r : Rtc) (w : BitVec 64) : Prop :=
  ∀ stores, (r.cut w stores).lastSync = 0 ∨ (r.cut w stores).lastSync = r.lastSync ∨
    (r.cut w stores).lastSync = w

/-- All that is looked at but the lower half says that there was a sync. -/
def Rtc.marked (r : Rtc) : Bool :=
  r.magic == rtcMagic && r.synced == ~~~r.syncedInv && r.synced != 0 && r.syncHi == ~~~r.syncHiInv

/-- No earlier sync stands in the block, or one half of the time in it is that of the new one,
    or the old upper half and the new lower half are both 0. -/
def Rtc.Unmixed (r : Rtc) (w : BitVec 64) : Prop :=
  r.marked = false ∨ r.syncHi = hiWord w ∨
    (r.syncLo = ~~~r.syncLoInv ∧ r.syncLo = loWord w) ∨ (r.syncHi = 0 ∧ loWord w = 0)

instance (r : Rtc) (w : BitVec 64) : Decidable (r.Unmixed w) :=
  inferInstanceAs (Decidable (_ ∨ _))

section

variable {r : Rtc} {w : BitVec 64} {hi lo hi' lo' : BitVec 32}

/-! ## Two words -/

theorem getLsbD_join (i : Nat) :
    (join hi lo).getLsbD i = if i < 32 then lo.getLsbD i else hi.getLsbD (i - 32) := by
  unfold join
  by_cases hlow : i < 32
  · have hlt : i < 64 := Nat.lt_trans hlow (by decide)
    simp [hlow, hlt]
  · by_cases hlt : i < 64
    · have hzero : lo.getLsbD i = false := BitVec.getLsbD_of_ge lo i (Nat.not_lt.mp hlow)
      simp [hlow, hlt, hzero]
    · have hzero : hi.getLsbD (i - 32) = false := BitVec.getLsbD_of_ge hi _ (by omega)
      simp [hlow, hlt, hzero]

theorem loWord_eq : loWord w = w.setWidth 32 := by
  have hmask : (0xffffffff : BitVec 64).setWidth 32 = BitVec.allOnes 32 := rfl
  rw [loWord, BitVec.setWidth_and, hmask, BitVec.and_allOnes]

theorem loWord_join : loWord (join hi lo) = lo := by
  apply BitVec.eq_of_getLsbD_eq
  intro i hi
  rw [loWord_eq, BitVec.getLsbD_setWidth, getLsbD_join, if_pos hi]
  simp [hi]

theorem hiWord_join : hiWord (join hi lo) = hi := by
  apply BitVec.eq_of_getLsbD_eq
  intro i hi
  unfold hiWord
  rw [BitVec.getLsbD_setWidth, BitVec.getLsbD_ushiftRight, getLsbD_join]
  simp [hi]

theorem join_words (w : BitVec 64) : join (hiWord w) (loWord w) = w := by
  apply BitVec.eq_of_getLsbD_eq
  intro i hi
  rw [getLsbD_join, loWord_eq]
  split
  · rename_i hlow
    simp [hlow]
  · rename_i hlow
    have hback : 32 + (i - 32) = i := by omega
    have hup : i - 32 < 32 := by omega
    simp [hiWord, hback, hup]

theorem join_inj : join hi lo = join hi' lo' ↔ hi = hi' ∧ lo = lo' := by
  constructor
  · intro h
    have hhi := congrArg hiWord h
    have hlo := congrArg loWord h
    rw [hiWord_join, hiWord_join] at hhi
    rw [loWord_join, loWord_join] at hlo
    exact ⟨hhi, hlo⟩
  · rintro ⟨rfl, rfl⟩
    rfl

/-! ## What is read back -/

/-- A sync that is read back as such: the mark, and the lower half's own check. -/
theorem lastSync_eq : r.lastSync =
    if r.marked && r.syncLo == ~~~r.syncLoInv then join r.syncHi r.syncLo else 0 := by
  unfold Rtc.lastSync
  have hsame : (!r.valid || r.synced == 0) = !(r.marked && r.syncLo == ~~~r.syncLoInv) := by
    unfold Rtc.valid Rtc.marked bne
    cases r.magic == rtcMagic <;> cases r.synced == ~~~r.syncedInv <;> cases r.synced == 0 <;>
      cases r.syncHi == ~~~r.syncHiInv <;> cases r.syncLo == ~~~r.syncLoInv <;> rfl
  rw [hsame]
  cases r.marked && r.syncLo == ~~~r.syncLoInv <;> rfl

theorem lastSync_cases :
    r.lastSync = 0 ∨ r.marked = true ∧ r.lastSync = join r.syncHi r.syncLo := by
  rw [lastSync_eq]
  split
  · rename_i h
    exact .inr ⟨(Bool.and_eq_true _ _ ▸ h).1, rfl⟩
  · exact .inl rfl

/-- Both halves are those of this time. -/
def Rtc.Holds (r : Rtc) (w : BitVec 64) : Prop := r.syncHi = hiWord w ∧ r.syncLo = loWord w

/-- No store takes anything back. -/
theorem rtcNoteSync_holds {store : Rtc → Rtc} (hstore : store ∈ rtcNoteSync w)
    (h : r.Holds w) : (store r).Holds w := by
  simp only [rtcNoteSync, List.mem_cons, List.not_mem_nil, or_false] at hstore
  rcases hstore with rfl | rfl | rfl | rfl | rfl | rfl | rfl
  · exact ⟨h.1, rfl⟩
  · exact h
  · exact ⟨rfl, h.2⟩
  all_goals exact h

/-- From the third store on both halves are the new time's. -/
theorem cut_holds {stores : Nat} (h : 3 ≤ stores) : (r.cut w stores).Holds w := by
  have hlist : (rtcNoteSync w).take stores =
      (rtcNoteSync w).take 3 ++ ((rtcNoteSync w).drop 3).take (stores - 3) := by
    rw [← List.take_add, Nat.add_sub_cancel' h]
  unfold Rtc.cut
  rw [hlist, List.foldl_append]
  refine List.foldlRecOn (motive := (Rtc.Holds · w)) _ _ ⟨rfl, rfl⟩ fun r hr store hmem => ?_
  exact rtcNoteSync_holds (List.mem_of_mem_drop (List.mem_of_mem_take hmem)) hr

/-- Between the two halves the lower one is new and the upper one is not. -/
theorem cut_between {stores : Nat} (h : stores = 1 ∨ stores = 2) :
    (r.cut w stores).syncHi = r.syncHi ∧ (r.cut w stores).syncLo = loWord w ∧
      (r.cut w stores).marked = r.marked := by
  rcases h with rfl | rfl <;> exact ⟨rfl, rfl, rfl⟩

theorem Rtc.Unmixed.cutOk (h : r.Unmixed w) : r.CutOk w := by
  intro stores
  rcases Nat.lt_or_ge stores 3 with hlt | hge
  · rcases Nat.eq_zero_or_pos stores with rfl | hpos
    · exact .inr (.inl rfl)
    obtain ⟨hhi, hlo, hmarked⟩ := cut_between (r := r) (w := w) (by omega : stores = 1 ∨ stores = 2)
    rcases lastSync_cases (r := r.cut w stores) with hnone | ⟨hmark, htime⟩
    · exact .inl hnone
    rw [htime, hhi, hlo]
    rcases h with hno | hsame | ⟨hpair, hsame⟩ | ⟨hzero, hzero'⟩
    · exact absurd (hno.symm.trans (hmarked.symm.trans hmark)) Bool.false_ne_true
    · exact .inr (.inr (hsame ▸ join_words w))
    · -- the lower half is the one that was there
      refine .inr (.inl ?_)
      rw [lastSync_eq, ← hmarked, hmark, ← hpair, beq_self_eq_true, Bool.and_self, if_pos rfl,
        hsame]
    · rw [hzero, hzero']
      exact .inl (by decide)
  · obtain ⟨hhi, hlo⟩ := cut_holds (r := r) (w := w) hge
    rcases lastSync_cases (r := r.cut w stores) with hnone | ⟨-, htime⟩
    · exact .inl hnone
    · exact .inr (.inr (by rw [htime, hhi, hlo, join_words]))

theorem Rtc.CutOk.unmixed (h : r.CutOk w) : r.Unmixed w := by
  cases hmarked : r.marked with
  | false => exact .inl hmarked
  | true =>
    -- the reset that comes right after the lower half and its complement
    obtain ⟨hhi, hlo, hmark⟩ := cut_between (r := r) (w := w) (.inr (rfl : 2 = 2))
    have hpair : (r.cut w 2).syncLo = ~~~(r.cut w 2).syncLoInv := (BitVec.not_not).symm
    have htime : (r.cut w 2).lastSync = join r.syncHi (loWord w) := by
      rw [lastSync_eq, hmark, hmarked, ← hpair, beq_self_eq_true, Bool.and_self, if_pos rfl, hhi,
        hlo]
    have hzero : join r.syncHi (loWord w) = 0 → r.syncHi = 0 ∧ loWord w = 0 := fun hz =>
      join_inj.mp (hz.trans (by decide : (0 : BitVec 64) = join 0 0))
    rcases h 2 with hnone | hprev | hnew
    · exact .inr (.inr (.inr (hzero (htime.symm.trans hnone))))
    · rw [htime, lastSync_eq, hmarked, Bool.true_and] at hprev
      split at hprev
      · rename_i hold
        exact .inr (.inr (.inl ⟨eq_of_beq hold, (join_inj.mp hprev).2.symm⟩))
      · exact .inr (.inr (.inr (hzero hprev)))
    · have hnew : join r.syncHi (loWord w) = join (hiWord w) (loWord w) := by
        rw [join_words, ← htime, hnew]
      exact .inr (.inl (join_inj.mp hnew).1)

/-- **A reset in the middle of a sync leaves a time that is neither, exactly if it can mix the
    halves of two.** -/
theorem Rtc.cut_ok_iff (r : Rtc) (w : BitVec 64) : r.CutOk w ↔ r.Unmixed w :=
  ⟨Rtc.CutOk.unmixed, Rtc.Unmixed.cutOk⟩

/-- After a sync at the last second that has 32 bits, one two seconds later: 1 is read back. -/
theorem Rtc.cut_ok_fails :
    let r : Rtc := ⟨rtcMagic, 1, ~~~1, 0xffffffff, 0, 0, ~~~0⟩
    r.lastSync = 0xffffffff ∧ (r.cut 0x100000001 2).lastSync = 1 ∧
      ¬ ∀ (r : Rtc) (w : BitVec 64), r.CutOk w := by
  refine ⟨by decide, by decide, fun h => ?_⟩
  rcases h ⟨rtcMagic, 1, ~~~1, 0xffffffff, 0, 0, ~~~0⟩ 0x100000001 2 with h | h | h <;>
    exact absurd h (by decide)

end

end Clock
end Wt32Router
