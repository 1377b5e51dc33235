import Mathlib.Data.List.Basic
import Mathlib.Data.Nat.Notation

/-!
# A station on a management bus of two wires

The answering side of the frames of clause 22: a clock the master drives, and a data line that
whoever has something to say drives and that reads as 1 where nobody does. A frame is 32 ones or
more, the start `01`, two bits of what is wanted, five of the station and five of the register, and
18 clocks more. A station looks at the line on the rising edge and puts its own bits there behind
it.

> **`Station.readFrame`**: the clocks of a frame that asks a station for a register bring a zero
> and then the register, the most significant bit first.

A frame that was cut off leaves a station in the middle of one, and the ones in front of the next
frame are taken for the rest of it. They are enough to end it (`Station.sync_phase`), and perhaps
not enough to count as the front of a frame of their own.
-/

namespace Wt32Router
namespace Lib
namespace Mdio

/-! ## Words and their bits -/

/-- The bits of a word, the most significant first. -/
def msbFirst {w : Nat} (v : BitVec w) : List Bool := (List.range w).reverse.map v.getLsbD

/-- One bit more, behind those there are. -/
def shiftIn {w : Nat} (v : BitVec w) (b : Bool) : BitVec w := (v <<< 1) ||| (BitVec.ofBool b).setWidth w

def ofBits (w : Nat) (bs : List Bool) : BitVec w := bs.foldl shiftIn 0

/-! ## The station -/

/-- Where in a frame a station is. -/
inductive Phase where
  /-- in front of one, behind so many ones -/
  | preamble (ones : Nat)
  /-- in its first 14 bits -/
  | command (bits : List Bool)
  /-- in one that is not for it, with so many clocks more behind the next one -/
  | skip (more : Nat)
  /-- driving the line, or not yet, with these bits still to come -/
  | answer (out : Option Bool) (pending : List Bool)
  /-- being written to -/
  | capture (reg : BitVec 5) (bits : List Bool)
deriving DecidableEq

/-- How many clocks it takes until the frame is over. -/
def Phase.left : Phase → Nat
  | .preamble _ => 0
  | .command bits => 13 - bits.length + 19
  | .skip more => more + 1
  | .answer _ pending => pending.length + 1
  | .capture _ bits => 17 - bits.length + 1

/-- Its address, its registers, and where it is. A frame it is in has had its first bit. -/
structure Station where
  addr : BitVec 5
  regs : BitVec 5 → BitVec 16
  phase : Phase
  short : phase.left < 32

/-- What follows the first 14 bits of a frame. -/
def decode (addr : BitVec 5) (regs : BitVec 5 → BitVec 16) (bits : List Bool) : Phase :=
  let reg := ofBits 5 (bits.drop 9)
  if bits.take 2 = [false, true] ∧ ofBits 5 ((bits.drop 4).take 5) = addr then
    if (bits.drop 2).take 2 = [true, false] then .answer none (false :: msbFirst (regs reg))
    else if (bits.drop 2).take 2 = [false, true] then .capture reg []
    else .skip 17
  else .skip 17

/-- The phase behind a rising edge that finds this level. -/
def Phase.next (addr : BitVec 5) (regs : BitVec 5 → BitVec 16) (level : Bool) : Phase → Phase
  | .preamble ones =>
      if level then .preamble (ones + 1)
      else if 32 ≤ ones then .command [false] else .preamble 0
  | .command bits =>
      if bits.length + 1 < 14 then .command (bits ++ [level])
      else decode addr regs (bits ++ [level])
  | .skip 0 => .preamble 0
  | .skip (more + 1) => .skip more
  | .answer _ (bit :: pending) => .answer (some bit) pending
  | .answer _ [] => .preamble 0
  | .capture reg bits =>
      if bits.length + 1 < 18 then .capture reg (bits ++ [level]) else .preamble 0

/-- The registers behind it: the last bit of a write puts its last 16 bits in one. -/
def Phase.store (regs : BitVec 5 → BitVec 16) (level : Bool) : Phase → BitVec 5 → BitVec 16
  | .capture reg bits =>
      if bits.length + 1 < 18 then regs
      else fun r => if r = reg then ofBits 16 ((bits ++ [level]).drop 2) else regs r
  | _ => regs

section

variable {addr : BitVec 5} {regs : BitVec 5 → BitVec 16} {level : Bool} {bits : List Bool}
  {phase : Phase}

@[simp] theorem length_msbFirst {w : Nat} (v : BitVec w) : (msbFirst v).length = w := by
  simp [msbFirst]

theorem left_decode : (decode addr regs bits).left = 18 := by
  unfold decode
  dsimp only
  split
  · split
    · simp [Phase.left]
    · split <;> rfl
  · rfl

/-- Every clock of a frame brings its end nearer. -/
theorem Phase.left_next (h : 0 < phase.left) :
    (phase.next addr regs level).left = phase.left - 1 := by
  cases phase with
  | preamble ones => exact absurd h (Nat.lt_irrefl 0)
  | command bits =>
    dsimp only [Phase.next]
    split
    · simp only [Phase.left, List.length_append, List.length_singleton]
      omega
    · rw [left_decode]
      simp only [Phase.left]
      omega
  | skip more => cases more <;> rfl
  | answer out pending => cases pending <;> rfl
  | capture reg bits =>
    dsimp only [Phase.next]
    split
    · simp only [Phase.left, List.length_append, List.length_singleton]
      omega
    · simp only [Phase.left]
      omega

theorem Phase.left_eq_zero (h : phase.left = 0) : ∃ ones, phase = .preamble ones := by
  cases phase with
  | preamble ones => exact ⟨ones, rfl⟩
  | command bits => exact absurd h (by simp [Phase.left])
  | skip more => exact absurd h (by simp [Phase.left])
  | answer out pending => exact absurd h (by simp [Phase.left])
  | capture reg bits => exact absurd h (by simp [Phase.left])

theorem Phase.short_next (h : phase.left < 32) : (phase.next addr regs level).left < 32 := by
  rcases Nat.eq_zero_or_pos phase.left with hzero | hpos
  · obtain ⟨ones, rfl⟩ := Phase.left_eq_zero hzero
    dsimp only [Phase.next]
    split
    · exact Nat.succ_pos _
    · split <;> decide
  · rw [Phase.left_next hpos]
    omega

end

namespace Station

/-- A rising edge of the clock. -/
def edge (s : Station) (level : Bool) : Station where
  addr := s.addr
  regs := s.phase.store s.regs level
  phase := s.phase.next s.addr s.regs level
  short := Phase.short_next s.short

/-- What the line reads as while no master drives it. -/
def line (s : Station) : Bool :=
  match s.phase with
  | .answer (some bit) _ => bit
  | _ => true

/-- The clocks of some bits of the master. -/
def feed (s : Station) (bits : List Bool) : Station := bits.foldl edge s

/-- A clock while no master drives the line. -/
def listen (s : Station) : Station := s.edge s.line

/-- So many clocks, and what is read behind each. -/
def hear : Nat → Station → Station × List Bool
  | 0, s => (s, [])
  | n + 1, s => ((hear n s.listen).1, s.listen.line :: (hear n s.listen).2)

/-- 32 ones: the front of a frame, or the end of one that was cut off. -/
def sync (s : Station) : Station := s.feed (List.replicate 32 true)

/-- In front of a frame. -/
def Idle (s : Station) : Prop := ∃ ones, s.phase = .preamble ones

instance (s : Station) : Decidable s.Idle :=
  match h : s.phase with
  | .preamble ones => isTrue ⟨ones, h⟩
  | .command _ | .skip _ | .answer _ _ | .capture _ _ => isFalse fun ⟨_, h'⟩ => by simp [h] at h'

/-- The first 46 bits of a frame that asks for a register. -/
def readHeader (addr reg : BitVec 5) : List Bool :=
  List.replicate 32 true ++ [false, true, true, false] ++ msbFirst addr ++ msbFirst reg

/-- The frame: what is read behind each of its last 18 clocks, and the station then. -/
def readFrame (s : Station) (addr reg : BitVec 5) : Station × List Bool :=
  hear 18 (s.feed (readHeader addr reg))

end Station

/-! ## Words -/

section

variable {w : Nat} {v : BitVec w}

theorem getLsbD_shiftIn (b : Bool) (i : Nat) (hi : i < w) :
    (shiftIn v b).getLsbD i = if i = 0 then b else v.getLsbD (i - 1) := by
  unfold shiftIn
  rw [BitVec.getLsbD_or, BitVec.getLsbD_shiftLeft, BitVec.getLsbD_setWidth,
    BitVec.getLsbD_ofBool]
  rcases Nat.eq_zero_or_pos i with rfl | hpos
  · simp [hi]
  · have hne : i ≠ 0 := Nat.pos_iff_ne_zero.mp hpos
    have hge : ¬ i < 1 := by omega
    simp [hne, hi, hge]

/-- After the first `n` bits of a word the lowest `n` are its highest. -/
theorem getLsbD_ofBits_take (n i : Nat) (hn : n ≤ w) (hi : i < n) :
    (ofBits w ((msbFirst v).take n)).getLsbD i = v.getLsbD (i + (w - n)) := by
  induction n generalizing i with
  | zero => exact absurd hi (Nat.not_lt_zero i)
  | succ n ih =>
    have hget : (msbFirst v).take (n + 1) = (msbFirst v).take n ++ [v.getLsbD (w - 1 - n)] := by
      rw [List.take_succ_eq_append_getElem (by rw [length_msbFirst]; omega)]
      simp [msbFirst]
    have hfold : ofBits w ((msbFirst v).take (n + 1)) =
        shiftIn (ofBits w ((msbFirst v).take n)) (v.getLsbD (w - 1 - n)) := by
      rw [hget]
      exact List.foldl_append
    rw [hfold, getLsbD_shiftIn _ _ (by omega)]
    split
    · rename_i hzero
      congr 1
      omega
    · rw [ih (i - 1) (by omega) (by omega)]
      congr 1
      omega

@[simp] theorem ofBits_msbFirst (v : BitVec w) : ofBits w (msbFirst v) = v := by
  apply BitVec.eq_of_getLsbD_eq
  intro i hi
  have h := getLsbD_ofBits_take (v := v) w i (Nat.le_refl w) hi
  rwa [List.take_of_length_le (Nat.le_of_eq (length_msbFirst v)), Nat.sub_self,
    Nat.add_zero] at h

end

/-! ## What a frame leaves -/

section

variable {s : Station} {addr reg : BitVec 5} {out : Option Bool} {bits pending : List Bool}
  {ones n : Nat}

theorem Phase.next_of_left_one (level : Bool) {phase : Phase} {regs : BitVec 5 → BitVec 16}
    (h : phase.left = 1) : phase.next addr regs level = .preamble 0 := by
  cases phase with
  | preamble ones => exact absurd h (by simp [Phase.left])
  | command bits => exact absurd h (by simp [Phase.left])
  | skip more =>
    obtain rfl : more = 0 := by simpa [Phase.left] using h
    rfl
  | answer out pending =>
    obtain rfl : pending = [] := by simpa [Phase.left] using h
    rfl
  | capture reg bits =>
    simp only [Phase.left] at h
    exact if_neg (by omega)

namespace Station

/-- Only the end of a write changes a register. -/
theorem edge_regs (b : Bool) (h : ∀ reg bits, s.phase ≠ .capture reg bits) :
    (s.edge b).regs = s.regs := by
  change s.phase.store s.regs b = s.regs
  cases hphase : s.phase with
  | capture reg bits => exact absurd hphase (h reg bits)
  | preamble _ => rfl
  | command _ => rfl
  | skip _ => rfl
  | answer _ _ => rfl

theorem feed_cons (b : Bool) : s.feed (b :: bits) = (s.edge b).feed bits := rfl

@[simp] theorem addr_feed : (s.feed bits).addr = s.addr := by
  induction bits generalizing s with
  | nil => rfl
  | cons b bits ih => exact ih (s := s.edge b)

@[simp] theorem addr_edge (b : Bool) : (s.edge b).addr = s.addr := rfl

@[simp] theorem addr_sync : s.sync.addr = s.addr := by
  unfold sync
  exact addr_feed

theorem feed_append (more : List Bool) : s.feed (bits ++ more) = (s.feed bits).feed more :=
  List.foldl_append

/-- Ones in front of a frame are counted. -/
theorem feed_ones (h : s.phase = .preamble ones) (n : Nat) :
    (s.feed (List.replicate n true)).phase = .preamble (ones + n) ∧
      (s.feed (List.replicate n true)).regs = s.regs := by
  induction n generalizing s ones with
  | zero => exact ⟨h, rfl⟩
  | succ n ih =>
    have hphase : (s.edge true).phase = .preamble (ones + 1) := by
      simp [edge, h, Phase.next]
    have hregs : (s.edge true).regs = s.regs := edge_regs _ (by simp [h])
    obtain ⟨hnext, hsame⟩ := ih hphase
    rw [List.replicate_succ]
    refine ⟨?_, hsame.trans hregs⟩
    rw [Nat.add_comm n 1, ← Nat.add_assoc]
    exact hnext

/-- Ones in the middle of one are taken for the rest of it, and those behind its end are
    counted. -/
theorem feed_ones_inside (hpos : 0 < s.phase.left) (h : s.phase.left ≤ n) :
    (s.feed (List.replicate n true)).phase = .preamble (n - s.phase.left) := by
  induction n generalizing s with
  | zero => omega
  | succ n ih =>
    have hleft : (s.edge true).phase.left = s.phase.left - 1 := Phase.left_next hpos
    rw [List.replicate_succ]
    rcases Nat.eq_or_lt_of_le (show 1 ≤ s.phase.left from hpos) with hone | hmore
    · have hend : (s.edge true).phase = .preamble 0 := Phase.next_of_left_one true hone.symm
      have hcount := (feed_ones hend n).1
      rw [Nat.zero_add] at hcount
      rw [← hone, Nat.add_sub_cancel]
      exact hcount
    · have hrest := ih (s := s.edge true) (by omega) (by omega)
      rw [hleft, show n - (s.phase.left - 1) = n + 1 - s.phase.left by omega] at hrest
      exact hrest

theorem idle_iff : s.Idle ↔ s.phase.left = 0 :=
  ⟨fun ⟨_, h⟩ => by rw [h]; rfl, Phase.left_eq_zero⟩

/-- **The ones in front of a frame end the one before**, and are enough for a frame of their own
    exactly if there was none to end. -/
theorem sync_phase (s : Station) :
    ∃ ones, s.sync.phase = .preamble ones ∧ (32 ≤ ones ↔ s.Idle) := by
  rcases Nat.eq_zero_or_pos s.phase.left with hzero | hpos
  · obtain ⟨ones, hones⟩ := Phase.left_eq_zero hzero
    refine ⟨ones + 32, (feed_ones hones 32).1, ?_⟩
    exact iff_of_true (Nat.le_add_left _ _) ⟨ones, hones⟩
  · have hshort := s.short
    refine ⟨32 - s.phase.left, feed_ones_inside hpos (Nat.le_of_lt hshort), ?_⟩
    refine iff_of_false (by omega) fun h => ?_
    exact absurd (idle_iff.mp h) (Nat.pos_iff_ne_zero.mp hpos)

theorem sync_regs (h : s.Idle) : s.sync.regs = s.regs := by
  obtain ⟨ones, hones⟩ := h
  exact (feed_ones hones 32).2

/-- Too few ones, and nothing of the frame behind them is taken for one. -/
theorem feed_missed (bits : List Bool) (h : s.phase = .preamble ones) (hfew : ones + bits.length < 32) :
    ∃ ones', (s.feed bits).phase = .preamble ones' ∧ ones' ≤ ones + bits.length ∧
      (s.feed bits).regs = s.regs := by
  induction bits generalizing s ones with
  | nil => exact ⟨ones, h, Nat.le_refl _, rfl⟩
  | cons b bits ih =>
    rw [List.length_cons] at hfew
    have hregs : (s.edge b).regs = s.regs := edge_regs _ (by simp [h])
    have hphase : ∃ m, (s.edge b).phase = .preamble m ∧ m ≤ ones + 1 := by
      cases b with
      | false =>
        refine ⟨0, ?_, Nat.zero_le _⟩
        simp only [edge, h, Phase.next, Bool.false_eq_true, if_false]
        exact if_neg (by omega)
      | true => exact ⟨ones + 1, by simp [edge, h, Phase.next], Nat.le_refl _⟩
    obtain ⟨m, hm, hle⟩ := hphase
    obtain ⟨ones', hend, hle', hsame⟩ := ih hm (by omega)
    exact ⟨ones', hend, by rw [List.length_cons]; omega, hsame.trans hregs⟩

/-- The rest of the first 14 bits. -/
theorem feed_command (bits : List Bool) {first : List Bool} (h : s.phase = .command first)
    (hlen : first.length + bits.length = 14) (hne : bits ≠ []) :
    (s.feed bits).phase = decode s.addr s.regs (first ++ bits) ∧ (s.feed bits).regs = s.regs := by
  induction bits generalizing s first with
  | nil => exact absurd rfl hne
  | cons b bits ih =>
    rw [List.length_cons] at hlen
    have hregs : (s.edge b).regs = s.regs := edge_regs _ (by simp [h])
    cases bits with
    | nil =>
      refine ⟨?_, hregs⟩
      simp only [feed, List.foldl_cons, List.foldl_nil, edge, h, Phase.next]
      exact if_neg (by rw [List.length_nil] at hlen; omega)
    | cons b' bits =>
      have hphase : (s.edge b).phase = .command (first ++ [b]) := by
        simp only [edge, h, Phase.next]
        exact if_pos (by rw [List.length_cons] at hlen; omega)
      have hlen' : (first ++ [b]).length + (b' :: bits).length = 14 := by
        rw [List.length_append, List.length_singleton]
        omega
      obtain ⟨hend, hsame⟩ := ih hphase hlen' (List.cons_ne_nil _ _)
      refine ⟨?_, hsame.trans hregs⟩
      rw [hregs, List.append_assoc] at hend
      exact hend

theorem decode_read : decode s.addr s.regs
      ([false, true, true, false] ++ msbFirst addr ++ msbFirst reg) =
    if addr = s.addr then .answer none (false :: msbFirst (s.regs reg)) else .skip 17 := by
  have haddr : ((([false, true, true, false] ++ msbFirst addr ++ msbFirst reg).drop 4).take 5) =
      msbFirst addr := by
    simp
  have hreg : ([false, true, true, false] ++ msbFirst addr ++ msbFirst reg).drop 9 =
      msbFirst reg := by
    simp
  unfold decode
  rw [haddr, hreg, ofBits_msbFirst, ofBits_msbFirst]
  by_cases h : addr = s.addr
  · rw [if_pos h, if_pos ⟨rfl, h⟩]
    rfl
  · rw [if_neg h, if_neg fun hboth => h hboth.2]

/-- Behind the first 46 bits: answering, in a frame for somebody else, or in none. -/
theorem feed_readHeader (s : Station) (addr reg : BitVec 5) :
    (s.feed (readHeader addr reg)).addr = s.addr ∧
      (s.feed (readHeader addr reg)).regs = s.sync.regs ∧
      if s.Idle then
        (s.feed (readHeader addr reg)).phase =
          if addr = s.addr then .answer none (false :: msbFirst (s.sync.regs reg)) else .skip 17
      else ∃ ones, (s.feed (readHeader addr reg)).phase = .preamble ones ∧ ones ≤ 13 := by
  have hcut : s.feed (readHeader addr reg) = (s.sync.edge false).feed
      ([true, true, false] ++ msbFirst addr ++ msbFirst reg) := by
    have hbits : readHeader addr reg = List.replicate 32 true ++
        false :: ([true, true, false] ++ msbFirst addr ++ msbFirst reg) := by
      simp only [readHeader, List.append_assoc, List.cons_append, List.nil_append]
    rw [← feed_cons, sync, ← feed_append, ← hbits]
  obtain ⟨ones, hones, hidle⟩ := s.sync_phase
  have hregs : (s.sync.edge false).regs = s.sync.regs := edge_regs _ (by simp [hones])
  refine ⟨addr_feed, ?_⟩
  by_cases h : s.Idle
  · rw [if_pos h, hcut]
    have hstart : (s.sync.edge false).phase = .command [false] := by
      simp only [edge, hones, Phase.next, Bool.false_eq_true, if_false]
      exact if_pos (hidle.mpr h)
    obtain ⟨hend, hsame⟩ := feed_command ([true, true, false] ++ msbFirst addr ++ msbFirst reg)
      hstart (by simp) (by simp)
    have hwhole : [false] ++ ([true, true, false] ++ msbFirst addr ++ msbFirst reg) =
        [false, true, true, false] ++ msbFirst addr ++ msbFirst reg := rfl
    rw [hwhole, decode_read, hregs] at hend
    rw [addr_edge, addr_sync] at hend
    exact ⟨hsame.trans hregs, hend⟩
  · rw [if_neg h, hcut]
    have hstart : (s.sync.edge false).phase = .preamble 0 := by
      simp only [edge, hones, Phase.next, Bool.false_eq_true, if_false]
      exact if_neg fun hle => h (hidle.mp hle)
    obtain ⟨ones', hend, hle, hsame⟩ :=
      feed_missed ([true, true, false] ++ msbFirst addr ++ msbFirst reg) hstart (by simp)
    exact ⟨hsame.trans hregs, ones', hend, by simpa using hle⟩

/-! ## What is read -/

theorem hear_succ (n : Nat) (s : Station) :
    hear (n + 1) s = ((hear n s.listen).1, s.listen.line :: (hear n s.listen).2) := rfl

theorem hear_snoc (n : Nat) (s : Station) :
    hear (n + 1) s = ((hear n s).1.listen, (hear n s).2 ++ [(hear n s).1.listen.line]) := by
  induction n generalizing s with
  | zero => rfl
  | succ n ih =>
    rw [hear_succ, ih s.listen, hear_succ n s]
    rfl

@[simp] theorem length_hear (n : Nat) (s : Station) : (hear n s).2.length = n := by
  induction n generalizing s with
  | zero => rfl
  | succ n ih => rw [hear_succ, List.length_cons, ih]

/-- A station that answers puts its bits on the line one by one, and lets go. -/
theorem hear_answer (h : s.phase = .answer out pending) :
    (hear (pending.length + 1) s).2 = pending ++ [true] ∧
      (hear (pending.length + 1) s).1.phase = .preamble 0 ∧
      (hear (pending.length + 1) s).1.addr = s.addr ∧
      (hear (pending.length + 1) s).1.regs = s.regs := by
  induction pending generalizing s out with
  | nil =>
    have hregs : s.listen.regs = s.regs := edge_regs _ (by simp [h])
    have hphase : s.listen.phase = .preamble 0 := by
      simp [listen, edge, h, Phase.next]
    rw [List.length_nil, hear_succ]
    refine ⟨?_, hphase, rfl, hregs⟩
    simp [hear, line, hphase]
  | cons b pending ih =>
    have hphase : s.listen.phase = .answer (some b) pending := by
      simp [listen, edge, h, Phase.next]
    have hregs : s.listen.regs = s.regs := edge_regs _ (by simp [h])
    obtain ⟨hbits, hend, haddr, hsame⟩ := ih hphase
    rw [List.length_cons, hear_succ]
    refine ⟨?_, hend, haddr, hsame.trans hregs⟩
    have hline : s.listen.line = b := by
      simp [line, hphase]
    rw [hline, hbits]
    rfl

/-- Of a frame for somebody else nothing is heard here. -/
theorem hear_skip {more : Nat} (h : s.phase = .skip more) :
    (hear (more + 1) s).2 = List.replicate (more + 1) true ∧
      (hear (more + 1) s).1.phase = .preamble 0 ∧ (hear (more + 1) s).1.addr = s.addr ∧
      (hear (more + 1) s).1.regs = s.regs := by
  induction more generalizing s with
  | zero =>
    have hregs : s.listen.regs = s.regs := edge_regs _ (by simp [h])
    have hphase : s.listen.phase = .preamble 0 := by
      simp [listen, edge, h, Phase.next]
    rw [hear_succ]
    refine ⟨?_, hphase, rfl, hregs⟩
    simp [hear, line, hphase]
  | succ more ih =>
    have hphase : s.listen.phase = .skip more := by
      simp [listen, edge, h, Phase.next]
    have hregs : s.listen.regs = s.regs := edge_regs _ (by simp [h])
    obtain ⟨hbits, hend, haddr, hsame⟩ := ih hphase
    rw [hear_succ]
    refine ⟨?_, hend, haddr, hsame.trans hregs⟩
    have hline : s.listen.line = true := by
      simp [line, hphase]
    rw [hline, hbits]
    rfl

/-- In front of a frame the line stays at 1. -/
theorem hear_preamble (h : s.phase = .preamble ones) (n : Nat) :
    (hear n s).2 = List.replicate n true ∧ (hear n s).1.phase = .preamble (ones + n) ∧
      (hear n s).1.addr = s.addr ∧ (hear n s).1.regs = s.regs := by
  induction n generalizing s ones with
  | zero => exact ⟨rfl, h, rfl, rfl⟩
  | succ n ih =>
    have hphase : s.listen.phase = .preamble (ones + 1) := by
      simp [listen, line, edge, h, Phase.next]
    have hregs : s.listen.regs = s.regs := edge_regs _ (by simp [h])
    obtain ⟨hbits, hend, haddr, hsame⟩ := ih hphase
    rw [hear_succ]
    refine ⟨?_, ?_, haddr, hsame.trans hregs⟩
    · have hline : s.listen.line = true := by
        simp [line, hphase]
      rw [hline, hbits]
      rfl
    · rw [Nat.add_comm n 1, ← Nat.add_assoc]
      exact hend

/-- **A frame that asks for a register.** A station in front of a frame that is asked answers with
    a zero and the register; one that is not, or that was in the middle of a frame, says nothing.
    Behind it the station is in front of a frame, with the registers it had, or those it had when
    a frame that was cut off was over. -/
theorem readFrame_spec (s : Station) (addr reg : BitVec 5) :
    (s.readFrame addr reg).2 =
        (if s.Idle ∧ addr = s.addr then false :: (msbFirst (s.regs reg) ++ [true])
          else List.replicate 18 true) ∧
      (s.readFrame addr reg).1.Idle ∧ (s.readFrame addr reg).1.addr = s.addr ∧
      (s.readFrame addr reg).1.regs = s.sync.regs := by
  obtain ⟨haddr, hregs, hphase⟩ := s.feed_readHeader addr reg
  unfold readFrame
  by_cases h : s.Idle
  · rw [if_pos h] at hphase
    by_cases ha : addr = s.addr
    · rw [if_pos ha, sync_regs h] at hphase
      have hlen : (false :: msbFirst (s.regs reg)).length + 1 = 18 := by simp
      obtain ⟨hbits, hend, haddr', hsame⟩ := hear_answer hphase
      rw [hlen] at hbits hend haddr' hsame
      rw [if_pos ⟨h, ha⟩]
      exact ⟨hbits, ⟨0, hend⟩, haddr'.trans haddr, hsame.trans hregs⟩
    · rw [if_neg ha] at hphase
      obtain ⟨hbits, hend, haddr', hsame⟩ := hear_skip hphase
      rw [if_neg fun hboth => ha hboth.2]
      exact ⟨hbits, ⟨0, hend⟩, haddr'.trans haddr, hsame.trans hregs⟩
  · rw [if_neg h] at hphase
    obtain ⟨ones, hones, -⟩ := hphase
    obtain ⟨hbits, hend, haddr', hsame⟩ := hear_preamble hones 18
    rw [if_neg fun hboth => h hboth.1]
    exact ⟨hbits, ⟨_, hend⟩, haddr'.trans haddr, hsame.trans hregs⟩

end Station

end

end Mdio
end Lib
end Wt32Router
