import Wt32Router.Lib.Runs
import Wt32Router.Web.Builder
import Wt32Router.Web.DownloadText

/-!
# Downloading the log

`logs_download_get_handler` of `main/web_server.c` puts the rows together in a buffer of 1024 bytes
and sends what is in it when fewer than 200 are free. One check stands before two appends, of a
notice and a row, and a row alone can have 204 bytes. Where they do not fit, the row is cut off,
and the chunk is sent with a NUL for its last byte.

> **`download_whole_iff`**: what is sent, with what is still in the buffer, is whole rows and
> notices at every step of a run, if and only if the notice and the row of each turn fit.

The ring's lock is taken for each line alone, so lines come in between two turns, and in a turn
too, if the append logs that the row was cut off: nothing of the ring is read after that.
-/

namespace Wt32Router
namespace Web

open Lib (Along Formatted Memory load watch)
open Logs (LogLine Ring)

/-- `LOGS_DL_CHUNK`. -/
def logsDlChunk : BitVec 32 := 1024

def logsDlLineMax : BitVec 32 := 200

/-- The ring, and the variables of the handler. `sent` is what `httpd_resp_send_chunk` has been
    given, of the last download begun. -/
structure Download where
  ring : Ring
  chunk : Memory
  off : BitVec 32
  failed : Bool
  seq : BitVec 32
  newest : BitVec 32
  gap : BitVec 32
  sent : List (List UInt8)
  active : Bool

inductive DownloadEvent where
  | log (line : LogLine)
  /-- The handler up to its loop, and whether its two chunks are taken. -/
  | begin (header : DownloadHeader) (ok ok' : Bool)
  /-- One turn of the loop, or the way out of it: whether a chunk sent for room is taken, and
      whether the last one is. -/
  | turn (ok ok' : Bool)

namespace Download

def start (ring : Ring) (chunk : Memory) : Download :=
  { ring, chunk, off := 0, failed := false, seq := 0, newest := 0, gap := 0, sent := []
    active := false }

def append (s : Download) (text : List UInt8) : Download :=
  { s with
    chunk := (respAppendAt s.chunk logsDlChunk s.off (.ofText text)).1
    off := (respAppendAt s.chunk logsDlChunk s.off (.ofText text)).2 }

/-- `off = dl_flush(..)`. -/
def flush (s : Download) (ok : Bool) : Download :=
  if s.failed ∨ s.off.toInt ≤ 0 then { s with off := 0 }
  else { s with sent := s.sent ++ [load s.chunk s.off.toNat], failed := !ok, off := 0 }

/-- The range is read, and nothing is written yet. -/
def opened (s : Download) : Download :=
  { s with
    off := 0, failed := false, seq := s.ring.getRange.1, newest := s.ring.getRange.2.1, gap := 0
    sent := [], active := true }

def begin (s : Download) (header : DownloadHeader) (ok ok' : Bool) : Download :=
  let range := s.ring.getRange
  let s := (header.first.foldl append s.opened).flush ok
  ((header.second range.1 range.2.1 range.2.2).foldl append s).flush ok'

/-- The bytes that are to be free are not. -/
def tight (s : Download) : Bool := logsDlChunk ≤ s.off + logsDlLineMax

def makeRoom (s : Download) (ok : Bool) : Download := if s.tight then s.flush ok else s

/-- The notice of the lines missed, if any are. -/
def notice (s : Download) : List (List UInt8) :=
  if 0 < s.gap then [overwrittenText s.gap] else []

/-- A line read: the notice of those before it, and its row. -/
def putLine (s : Download) (line : LogLine) : Download :=
  let next := (s.notice ++ [rowText s.seq line]).foldl append s
  { next with gap := 0, seq := s.seq + 1 }

def more (s : Download) : Bool := s.seq ≤ s.newest && !s.failed

/-- The loop's body. A failed send ends the loop. -/
def body (s : Download) (ok : Bool) : Download :=
  match s.ring.getLine s.seq with
  | none => { s with gap := s.gap + 1, seq := s.seq + 1 }
  | some line =>
      let s := s.makeRoom ok
      if s.failed then s else s.putLine (copyOut line)

/-- The handler after its loop. -/
def leave (s : Download) (ok ok' : Bool) : Download :=
  let s := if 0 < s.gap ∧ !s.failed then s.notice.foldl append (s.makeRoom ok) else s
  { s.flush ok' with active := false }

def step (s : Download) : DownloadEvent → Download
  | .log line => { s with ring := s.ring.commit line }
  | .begin header ok ok' =>
      -- the server has one worker: a request waits for the one before it
      if s.active then s else s.begin header ok ok'
  | .turn ok ok' =>
      if !s.active then s else if s.more then s.body ok else s.leave ok ok'

/-! ## What is to be sent -/

/-- The texts that a step is to put behind those before it. A line read when the chunk before it
    was not taken is not one of them. -/
def due (s : Download) : DownloadEvent → List (List UInt8)
  | .log _ => []
  | .begin header ok _ =>
      if ok then header.first ++ header.second s.ring.getRange.1 s.ring.getRange.2.1
        s.ring.getRange.2.2
      else header.first
  | .turn ok _ =>
      if s.tight && !ok then []
      else if s.more then
        match s.ring.getLine s.seq with
        | none => []
        | some line => s.notice ++ [rowText s.seq (copyOut line)]
      else if s.failed then []
      else s.notice

/-- The texts of the last download begun. -/
def texts (s : Download) (e : DownloadEvent) (l : List (List UInt8)) : List (List UInt8) :=
  match e with
  | .log _ => l
  | .begin .. => if s.active then l else s.due e
  | .turn .. => if s.active then l ++ s.due e else l

/-- Every chunk, and what is in the buffer, is a run of whole texts, and together they are all the
    texts. When the handler has returned all of them have been sent. -/
structure Whole (s : Download × List (List UInt8)) : Prop where
  texts : ∃ (chunks : List (List (List UInt8))) (pending : List (List UInt8)),
    s.1.sent = chunks.map List.flatten ∧
      load s.1.chunk s.1.off.toNat = pending.flatten ∧ chunks.flatten ++ pending = s.2
  sent : s.1.active = false → s.1.sent.flatten = s.2.flatten

/-- A notice and a row that are to be written fit, or the buffer is emptied before. -/
def Fits (s : Download) : DownloadEvent → Prop
  | .turn _ _ => s.active → s.more → ∀ line ∈ s.ring.getLine s.seq, s.tight ∨
      s.off.toNat + (s.notice ++ [rowText s.seq (copyOut line)]).flatten.length <
        logsDlChunk.toNat
  | _ => True

instance (s : Download) : ∀ e, Decidable (Fits s e)
  | .log _ => inferInstanceAs (Decidable True)
  | .begin .. => inferInstanceAs (Decidable True)
  | .turn .. => match h : s.ring.getLine s.seq with
    | none => isTrue fun _ _ line hline => absurd (h ▸ hline) (by simp)
    | some line => decidable_of_iff (s.active → s.more → (s.tight ∨
        s.off.toNat + (s.notice ++ [rowText s.seq (copyOut line)]).flatten.length <
          logsDlChunk.toNat)) (by simp [Fits, h])

/-! ## The buffer -/

section

variable {s s' : Download} {before : Memory} {l texts : List (List UInt8)} {text : List UInt8}
  {ok ok' : Bool} {line : LogLine}

@[simp] theorem appends_sent : (l.foldl append s).sent = s.sent := by
  induction l generalizing s with
  | nil => rfl
  | cons text l ih => exact ih

@[simp] theorem appends_active : (l.foldl append s).active = s.active := by
  induction l generalizing s with
  | nil => rfl
  | cons text l ih => exact ih

@[simp] theorem appends_failed : (l.foldl append s).failed = s.failed := by
  induction l generalizing s with
  | nil => rfl
  | cons text l ih => exact ih

@[simp] theorem flush_off : (s.flush ok).off = 0 := by
  unfold flush
  split <;> rfl

@[simp] theorem flush_chunk : (s.flush ok).chunk = s.chunk := by
  unfold flush
  split <;> rfl

/-- The buffer is as an append before left it, full or not. -/
def Bounded (before : Memory) (s : Download) : Prop :=
  ∃ r, Holds logsDlChunk before (s.chunk, s.off) r

theorem Bounded.append (h : Bounded before s) (text : List UInt8) :
    Bounded before (s.append text) :=
  h.elim fun _ hr => ⟨_, hr.call (by decide) (.append (.ofText text))⟩

theorem Bounded.appends (h : Bounded before s) (l : List (List UInt8)) :
    Bounded before (l.foldl Download.append s) := by
  induction l generalizing s with
  | nil => exact h
  | cons text l ih => exact ih (h.append text)

/-- An emptied buffer. -/
theorem Bounded.empty (h : Bounded before s) (hchunk : s'.chunk = s.chunk) (hoff : s'.off = 0) :
    Bounded before s' := by
  obtain ⟨r, hr⟩ := h
  refine ⟨some [], ?_⟩
  rw [hchunk, hoff]
  exact .short (by decide) rfl rfl hr.beyond

theorem Bounded.congr (h : Bounded before s) (hchunk : s'.chunk = s.chunk)
    (hoff : s'.off = s.off) : Bounded before s' := by
  unfold Bounded
  rw [hchunk, hoff]
  exact h

theorem Bounded.flush (h : Bounded before s) : Bounded before (s.flush ok) :=
  h.empty flush_chunk flush_off

theorem Bounded.makeRoom (h : Bounded before s) (ok : Bool) :
    Bounded before (s.makeRoom ok) := by
  unfold Download.makeRoom
  split
  · exact h.flush
  · exact h

theorem Bounded.begin (h : Bounded before s) (header : DownloadHeader) :
    Bounded before (s.begin header ok ok') := by
  unfold Download.begin
  dsimp only
  have hopened : Bounded before s.opened := h.empty rfl rfl
  exact ((hopened.appends _).flush.appends _).flush

theorem Bounded.putLine (h : Bounded before s) (line : LogLine) :
    Bounded before (s.putLine line) := by
  have hput := h.appends (s.notice ++ [rowText s.seq line])
  exact hput.congr rfl rfl

theorem Bounded.body (h : Bounded before s) : Bounded before (s.body ok) := by
  unfold Download.body
  split
  · exact h.congr rfl rfl
  · dsimp only
    split
    · exact h.makeRoom ok
    · exact (h.makeRoom ok).putLine _

theorem Bounded.leave (h : Bounded before s) : Bounded before (s.leave ok ok') := by
  unfold Download.leave
  dsimp only
  split
  · exact (Bounded.flush ((h.makeRoom ok).appends _)).congr rfl rfl
  · exact h.flush.congr rfl rfl

theorem Bounded.step (h : Bounded before s) (e : DownloadEvent) : Bounded before (s.step e) := by
  unfold Download.step
  cases e with
  | log line => exact h.congr rfl rfl
  | begin header ok ok' =>
    dsimp only
    split
    · exact h
    · exact h.begin header
  | turn ok ok' =>
    dsimp only
    split
    · exact h
    split
    · exact h.body
    · exact h.leave

/-! ## Whole texts -/

/-- `Whole`, with what the buffer holds and that nothing has been written behind it. -/
def Kept (before : Memory) (s : Download) (texts : List (List UInt8)) : Prop :=
  ∃ (chunks : List (List (List UInt8))) (pending : List (List UInt8)),
    s.sent = chunks.map List.flatten ∧
      Holds logsDlChunk before (s.chunk, s.off) (some pending.flatten) ∧
      chunks.flatten ++ pending = texts

/-- What carries a run, of the state and the texts so far. -/
structure Sound (before : Memory) (s : Download × List (List UInt8)) : Prop where
  kept : Kept before s.1 s.2
  /-- no chunk is put together once one was not taken -/
  failed : s.1.failed = true → s.1.off = 0
  idle : s.1.active = false → s.1.off = 0

theorem Sound.whole {s : Download × List (List UInt8)} (h : Sound before s) : Whole s := by
  obtain ⟨chunks, pending, hsent, hholds, htexts⟩ := h.kept
  have hoff : s.1.off.toNat = pending.flatten.length := hholds.off
  refine ⟨⟨chunks, pending, hsent, ?_, htexts⟩, fun hactive => ?_⟩
  · rw [hoff]
    exact (hholds.bytes _ rfl).2
  · have hnil : pending.flatten = [] := by
      rw [h.idle hactive] at hoff
      exact List.length_eq_zero_iff.mp hoff.symm
    rw [hsent, ← htexts, List.flatten_append, hnil, List.append_nil, List.flatten_flatten]

theorem Kept.bounded (h : Kept before s texts) : Bounded before s := by
  obtain ⟨-, pending, -, hholds, -⟩ := h
  exact ⟨_, hholds⟩

theorem Kept.off_lt (h : Kept before s texts) : s.off.toNat < 1024 := by
  obtain ⟨-, pending, -, hholds, -⟩ := h
  rw [show s.off.toNat = pending.flatten.length from hholds.off]
  exact (hholds.bytes _ rfl).1

theorem Kept.congr (h : Kept before s texts) (hsent : s'.sent = s.sent)
    (hchunk : s'.chunk = s.chunk) (hoff : s'.off = s.off) : Kept before s' texts := by
  unfold Kept
  rw [hsent, hchunk, hoff]
  exact h

/-- Nothing of the buffer counts when it is empty. -/
theorem Kept.empty (h : Kept before s texts) (hoff : s.off = 0) (hbounded : Bounded before s')
    (hsent : s'.sent = s.sent) (hoff' : s'.off = 0) : Kept before s' texts := by
  obtain ⟨chunks, pending, hchunks, hholds, htexts⟩ := h
  obtain ⟨r, hr⟩ := hbounded
  have hlen : s.off.toNat = pending.flatten.length := hholds.off
  have hnil : pending.flatten = [] := by
    rw [hoff] at hlen
    exact List.length_eq_zero_iff.mp hlen.symm
  refine ⟨chunks, pending, hsent.trans hchunks, ?_, htexts⟩
  rw [hnil, hoff']
  exact .short (by decide) rfl rfl hr.beyond

/-- A download begun anew. -/
theorem Kept.start (h : Bounded before s) (hsent : s.sent = []) (hoff : s.off = 0) :
    Kept before s [] := by
  obtain ⟨r, hr⟩ := h
  refine ⟨[], [], hsent, ?_, rfl⟩
  rw [hoff]
  exact .short (by decide) rfl rfl hr.beyond

theorem Kept.append (h : Kept before s texts) (text : List UInt8)
    (hfits : s.off.toNat + text.length < logsDlChunk.toNat) :
    Kept before (s.append text) (texts ++ [text]) ∧
      (s.append text).off.toNat = s.off.toNat + text.length := by
  obtain ⟨chunks, pending, hsent, hholds, rfl⟩ := h
  have hlen : s.off.toNat = pending.flatten.length := hholds.off
  have hchunk : logsDlChunk.toNat = 1024 := rfl
  have hlt : text.length < 2 ^ 31 := by omega
  have hnext := hholds.append_text (by decide) hlt
  rw [respAppend_some (by omega)] at hnext
  have heq : Formatted.ofText text = .text text hlt := Lib.Formatted.ofText_of_lt hlt
  unfold Download.append
  rw [heq]
  refine ⟨⟨chunks, pending ++ [text], hsent, ?_, List.append_assoc _ _ _ |>.symm⟩, ?_⟩
  · rw [List.flatten_append, List.flatten_singleton]
    exact hnext
  · rw [show _ = (pending.flatten ++ text).length from hnext.off, List.length_append, hlen]

theorem Kept.appends (h : Kept before s texts)
    (hfits : s.off.toNat + l.flatten.length < logsDlChunk.toNat) :
    Kept before (l.foldl Download.append s) (texts ++ l) ∧
      (l.foldl Download.append s).off.toNat = s.off.toNat + l.flatten.length := by
  induction l generalizing s texts with
  | nil =>
    rw [List.append_nil]
    exact ⟨h, rfl⟩
  | cons text l ih =>
    rw [List.flatten_cons, List.length_append] at hfits ⊢
    obtain ⟨hkept, hoff⟩ := h.append text (by omega)
    obtain ⟨hrest, hend⟩ := ih hkept (by omega)
    rw [List.append_assoc] at hrest
    exact ⟨hrest, by rw [List.foldl_cons, hend, hoff, Nat.add_assoc]⟩

/-- What is in the buffer is a chunk of its own. -/
theorem Kept.flush (h : Kept before s texts) (hfailed : s.failed = true → s.off = 0)
    (ok : Bool) :
    Kept before (s.flush ok) texts := by
  unfold Download.flush
  split
  · rename_i hidle
    have hoff : s.off = 0 := by
      refine hidle.elim hfailed fun hle => ?_
      have hlt := h.off_lt
      rw [BitVec.toInt_eq_toNat_of_lt (by omega)] at hle
      exact BitVec.eq_of_toNat_eq (by simp; omega)
    exact h.empty hoff (h.bounded.empty rfl rfl) rfl rfl
  · obtain ⟨chunks, pending, hsent, hholds, rfl⟩ := h
    have hlen : s.off.toNat = pending.flatten.length := hholds.off
    have hload : load s.chunk s.off.toNat = pending.flatten := by
      rw [hlen]
      exact (hholds.bytes _ rfl).2
    refine ⟨chunks ++ [pending], [], ?_, .short (by decide) rfl rfl hholds.beyond, ?_⟩
    · rw [List.map_append, hsent, hload]
      rfl
    · simp

theorem flush_failed (h : s.failed = true) :
    (s.flush ok).sent = s.sent ∧ (s.flush ok).failed = true := by
  unfold Download.flush
  rw [if_pos (.inl h)]
  exact ⟨rfl, h⟩

theorem Kept.flush_failed (h : Kept before s texts) (hfailed : s.failed = false)
    (hpos : 0 < s.off.toNat) (ok : Bool) : (s.flush ok).failed = !ok := by
  have hlt := h.off_lt
  have hidle : ¬(s.failed = true ∨ s.off.toInt ≤ 0) := by
    rw [hfailed, BitVec.toInt_eq_toNat_of_lt (by omega)]
    simp only [Bool.false_eq_true, false_or]
    omega
  unfold Download.flush
  rw [if_neg hidle]

/-- Nothing put together after a failed send is sent. -/
theorem Kept.blocked (h : Kept before s texts) (hfailed : s.failed = true) (hoff : s.off = 0)
    (l : List (List UInt8)) :
    Sound before ((l.foldl Download.append s).flush ok, texts) := by
  have hsent : ((l.foldl Download.append s).flush ok).sent = (l.foldl Download.append s).sent :=
    (Download.flush_failed (appends_failed.trans hfailed)).1
  exact ⟨h.empty hoff (h.bounded.appends l).flush (hsent.trans appends_sent) flush_off,
    fun _ => flush_off, fun _ => flush_off⟩

/-! ## Turns -/

theorem tight_iff (h : Kept before s texts) : s.tight = true ↔ 824 ≤ s.off.toNat := by
  have hlt := h.off_lt
  unfold tight logsDlChunk logsDlLineMax
  rw [decide_eq_true_iff]
  bv_omega

theorem notice_length (s : Download) : s.notice.flatten.length ≤ 78 := by
  unfold notice
  split
  · simpa using overwrittenText_length s.gap
  · exact Nat.zero_le _

/-- The buffer with room in it, if the chunk before was taken. -/
theorem Kept.makeRoom (h : Kept before s texts) (hfailed : s.failed = false) (ok : Bool) :
    Kept before (s.makeRoom ok) texts ∧ (s.makeRoom ok).failed = (s.tight && !ok) ∧
      (s.tight = true → (s.makeRoom ok).off = 0) := by
  unfold Download.makeRoom
  cases htight : s.tight with
  | false => exact ⟨h, hfailed, fun h => absurd h (by decide)⟩
  | true =>
    have hoff := (tight_iff h).mp htight
    exact ⟨h.flush (fun hf => absurd hf (by rw [hfailed]; decide)) ok,
      h.flush_failed hfailed (by omega) ok, fun _ => flush_off⟩

theorem makeRoom_seq (s : Download) (ok : Bool) : (s.makeRoom ok).seq = s.seq := by
  unfold makeRoom flush
  split_ifs <;> rfl

theorem makeRoom_active (s : Download) (ok : Bool) : (s.makeRoom ok).active = s.active := by
  unfold makeRoom flush
  split_ifs <;> rfl

theorem makeRoom_notice (s : Download) (ok : Bool) : (s.makeRoom ok).notice = s.notice := by
  have hgap : (s.makeRoom ok).gap = s.gap := by
    unfold makeRoom flush
    split_ifs <;> rfl
  unfold notice
  rw [hgap]

theorem Kept.putLine (h : Kept before s texts) (line : LogLine)
    (hfits : s.off.toNat + (s.notice ++ [rowText s.seq line]).flatten.length <
      logsDlChunk.toNat) :
    Kept before (s.putLine line) (texts ++ (s.notice ++ [rowText s.seq line])) :=
  (h.appends hfits).1.congr rfl rfl rfl

/-- A text cut off fills the buffer, with a NUL at the end. -/
theorem Kept.append_cut (h : Kept before s texts) (text : List UInt8) (hlt : text.length < 2 ^ 31)
    (hcut : logsDlChunk.toNat ≤ s.off.toNat + text.length) :
    (s.append text).off.toNat = 1024 ∧ (s.append text).chunk 1023 = 0 := by
  have hoff := h.off_lt
  have hchunk : logsDlChunk.toNat = 1024 := rfl
  have heq : Formatted.ofText text = .text text hlt := Lib.Formatted.ofText_of_lt hlt
  obtain ⟨hbuf, hnext⟩ := respAppendAt_text (m := s.chunk) (by decide)
    (show s.off.toNat ≤ logsDlChunk.toNat by omega) hlt
  have hroom : (logsDlChunk - s.off).toNat = 1024 - s.off.toNat :=
    BitVec.toNat_sub_of_le (BitVec.le_def.mpr (by omega))
  unfold Download.append
  dsimp only
  rw [heq, hbuf, hnext]
  refine ⟨by omega, ?_⟩
  have hnul := Lib.vsnprintf_cut (m := s.chunk) (i := s.off.toNat) (f := .text text hlt)
    (show 0 < (logsDlChunk - s.off).toNat by omega) (show _ ≤ text.length by omega)
  rw [show s.off.toNat + ((logsDlChunk - s.off).toNat - 1) = 1023 by omega] at hnul
  exact hnul

theorem rowText_getLast (seq : BitVec 32) (line : LogLine) :
    (rowText seq line).getLast? = some 10 := by
  unfold rowText
  rw [List.getLast?_append]
  rfl

/-- A row that does not fit is cut off. -/
theorem Kept.putLine_cut (h : Kept before s texts) (hroom : s.tight = false)
    (hcut : logsDlChunk.toNat ≤
      s.off.toNat + (s.notice ++ [rowText s.seq (copyOut line)]).flatten.length) :
    ¬Whole (s.putLine (copyOut line), texts ++ (s.notice ++ [rowText s.seq (copyOut line)])) := by
  have hchunk : logsDlChunk.toNat = 1024 := rfl
  have hoff : s.off.toNat < 824 := by
    rw [← Nat.not_le, ← tight_iff h, hroom]
    decide
  have hnotice := notice_length s
  have hrow := rowText_length s.seq line
  rw [List.flatten_append, List.flatten_singleton, List.length_append] at hcut
  obtain ⟨hmid, hoff'⟩ := h.appends (l := s.notice) (by omega)
  obtain ⟨hfull, hnul⟩ := hmid.append_cut (rowText s.seq (copyOut line)) (by omega) (by omega)
  have hfold : (s.notice ++ [rowText s.seq (copyOut line)]).foldl Download.append s =
      (s.notice.foldl Download.append s).append (rowText s.seq (copyOut line)) :=
    List.foldl_append ..
  rintro ⟨⟨chunks, pending, hsent, hload, htexts⟩, -⟩
  have hoff_put : (s.putLine (copyOut line)).off.toNat = 1024 := by
    unfold Download.putLine
    dsimp only
    rw [hfold, hfull]
  have hchunk_put : (s.putLine (copyOut line)).chunk 1023 = 0 := by
    unfold Download.putLine
    dsimp only
    rw [hfold, hnul]
  -- the last byte in the buffer is a NUL, and the last of the row is not
  have hlast : (load (s.putLine (copyOut line)).chunk 1024).getLast? = some 0 := by
    rw [Lib.load_succ _ 1023, List.getLast?_append, hchunk_put]
    rfl
  have hflat := congrArg List.flatten htexts
  rw [List.flatten_append, ← hload] at hflat
  dsimp only at hflat
  rw [hoff_put] at hflat
  have hlasts := congrArg List.getLast? hflat
  rw [List.getLast?_append, hlast, ← List.append_assoc, List.flatten_append, List.getLast?_append,
    List.flatten_singleton, rowText_getLast] at hlasts
  exact absurd hlasts (by simp)

/-! ## Steps and runs -/

theorem Kept.begin (h : Kept before s texts) (header : DownloadHeader) :
    Sound before (s.begin header ok ok', s.due (.begin header ok ok')) := by
  have hchunk : logsDlChunk.toNat = 1024 := rfl
  have hstart : Kept before s.opened [] := .start (h.bounded.empty rfl rfl) rfl rfl
  have hfirst := first_length header
  have hsecond := second_length header s.ring.getRange.1 s.ring.getRange.2.1 s.ring.getRange.2.2
  have hpos := first_pos header
  have hrunning : (header.first.foldl Download.append s.opened).failed = false :=
    appends_failed
  obtain ⟨hone, hoff⟩ := hstart.appends (l := header.first)
    (show 0 + header.first.flatten.length < logsDlChunk.toNat by omega)
  have hflushed := hone.flush (fun hf => absurd hf (by rw [hrunning]; decide)) ok
  have hfailed := hone.flush_failed hrunning (by rw [hoff]; exact Nat.lt_add_left _ hpos) ok
  unfold Download.begin Download.due
  dsimp only
  cases ok with
  | false => exact hflushed.blocked hfailed flush_off _
  | true =>
    obtain ⟨htwo, -⟩ := hflushed.appends
      (l := header.second s.ring.getRange.1 s.ring.getRange.2.1 s.ring.getRange.2.2)
      (by rw [flush_off]; exact (Nat.zero_add _).trans_lt (by omega))
    refine ⟨htwo.flush (fun hf => absurd hf ?_) ok', fun _ => flush_off, fun _ => flush_off⟩
    rw [appends_failed, hfailed]
    decide

/-- A notice fits behind the check. -/
theorem Kept.putNotice (h : Kept before s texts) (hroom : s.off.toNat < 824) :
    Kept before (s.notice.foldl Download.append s) (texts ++ s.notice) := by
  have hnotice := notice_length s
  exact (h.appends (show _ < 1024 by omega)).1

/-- The chunk before was not taken. -/
theorem due_stopped (h : (s.tight && !ok) = true) : s.due (.turn ok ok') = [] :=
  if_pos h

theorem due_leave (h : (s.tight && !ok) = false) (hmore : s.more = false) :
    s.due (.turn ok ok') = if s.failed then [] else s.notice := by
  unfold due
  dsimp only
  rw [h, hmore]
  rfl

theorem due_line (h : (s.tight && !ok) = false) (hmore : s.more = true)
    (hline : s.ring.getLine s.seq = some line) :
    s.due (.turn ok ok') = s.notice ++ [rowText s.seq (copyOut line)] := by
  unfold due
  dsimp only
  rw [h, hmore, hline]
  rfl

theorem due_missing (hmore : s.more = true) (hline : s.ring.getLine s.seq = none) :
    s.due (.turn ok ok') = [] := by
  unfold due
  dsimp only
  rw [hmore, hline]
  exact ite_self _

theorem Kept.leave (h : Kept before s texts) (hfailed : s.failed = true → s.off = 0)
    (hmore : s.more = false) :
    Sound before (s.leave ok ok', texts ++ s.due (.turn ok ok')) := by
  have hlast : ∀ {s' : Download} {l}, Kept before (s'.flush ok') l →
      Sound before ({ s'.flush ok' with active := false }, l) := fun hk =>
    ⟨hk.congr rfl rfl rfl, fun _ => flush_off, fun _ => flush_off⟩
  unfold Download.leave
  dsimp only
  cases hrunning : s.failed with
  | true =>
    have hnone : s.due (.turn ok ok') = [] := by
      cases hstopped : s.tight && !ok with
      | true => exact due_stopped hstopped
      | false => rw [due_leave hstopped hmore, hrunning, if_pos rfl]
    rw [hnone, List.append_nil, if_neg (by simp)]
    exact hlast (h.flush hfailed ok')
  | false =>
    obtain ⟨hroom, hstopped, hempty⟩ := h.makeRoom hrunning ok
    by_cases hgap : 0 < s.gap
    · rw [if_pos ⟨hgap, rfl⟩]
      cases hstop : s.tight && !ok with
      | true =>
        rw [due_stopped hstop, List.append_nil]
        rw [hstop] at hstopped
        exact hlast (hroom.blocked hstopped (hempty (Bool.and_eq_true_iff.mp hstop).1) _).kept
      | false =>
        rw [due_leave hstop hmore, hrunning, if_neg (by decide), ← makeRoom_notice s ok]
        rw [hstop] at hstopped
        have hoff : (s.makeRoom ok).off.toNat < 824 := by
          cases htight : s.tight with
          | true =>
            rw [hempty htight]
            decide
          | false =>
            have heq : s.makeRoom ok = s := if_neg (by rw [htight]; decide)
            rw [heq, ← Nat.not_le, ← tight_iff h, htight]
            decide
        refine hlast ((hroom.putNotice hoff).flush (fun hf => absurd hf ?_) ok')
        rw [appends_failed, hstopped]
        decide
    · have hnone : s.due (.turn ok ok') = [] := by
        have hnotice : s.notice = [] := if_neg hgap
        cases hstop : s.tight && !ok with
        | true => exact due_stopped hstop
        | false => rw [due_leave hstop hmore, hrunning, if_neg (by decide), hnotice]
      rw [hnone, List.append_nil, if_neg fun hc => hgap hc.1]
      exact hlast (h.flush hfailed ok')

theorem Kept.body (h : Kept before s texts) (hactive : s.active = true) (hmore : s.more = true)
    (ok ok' : Bool) :
    (Fits s (.turn ok ok') → Sound before (s.body ok, texts ++ s.due (.turn ok ok'))) ∧
      (¬Fits s (.turn ok ok') → ¬Whole (s.body ok, texts ++ s.due (.turn ok ok'))) := by
  have hchunk : logsDlChunk.toNat = 1024 := rfl
  have hrunning : s.failed = false := by
    unfold more at hmore
    simpa using (Bool.and_eq_true_iff.mp hmore).2
  unfold Download.body
  cases hline : s.ring.getLine s.seq with
  | none =>
    rw [due_missing hmore hline, List.append_nil]
    refine ⟨fun _ => ⟨h.congr rfl rfl rfl, fun hf => absurd hf (by rw [hrunning]; decide),
      fun ha => absurd ha (by rw [hactive]; decide)⟩, fun hf => (hf fun _ _ line hmem => ?_).elim⟩
    exact absurd (hline ▸ hmem) (by simp)
  | some line =>
    obtain ⟨hroom, hstopped, hempty⟩ := h.makeRoom hrunning ok
    dsimp only
    cases hstop : s.tight && !ok with
    | true =>
      have htight := (Bool.and_eq_true_iff.mp hstop).1
      rw [due_stopped hstop, List.append_nil, hstopped, hstop, if_pos rfl]
      exact ⟨fun _ => ⟨hroom, fun _ => hempty htight, fun _ => hempty htight⟩,
        fun hf => (hf fun _ _ _ _ => .inl htight).elim⟩
    | false =>
      rw [due_line hstop hmore hline, hstopped, hstop, if_neg (by decide)]
      rw [hstop] at hstopped
      have hput : ∀ {s' : Download} {l}, s'.failed = false → s'.active = true →
          Kept before (s'.putLine (copyOut line)) l →
          Sound before (s'.putLine (copyOut line), l) := fun hf ha hk =>
        ⟨hk, fun hfailed => absurd (hfailed.symm.trans (appends_failed.trans hf)) (by decide),
          fun hidle => absurd (hidle.symm.trans (appends_active.trans ha)) (by decide)⟩
      cases htight : s.tight with
      | true =>
        have hnotice := notice_length s
        have hrow := rowText_length s.seq line
        have hfits := hroom.putLine (copyOut line)
        rw [makeRoom_notice, makeRoom_seq, hempty htight, List.flatten_append,
          List.flatten_singleton, List.length_append] at hfits
        replace hfits := hfits ((Nat.zero_add _).trans_lt (by omega))
        exact ⟨fun _ => hput hstopped ((makeRoom_active s ok).trans hactive) hfits,
          fun hf => (hf fun _ _ _ _ => .inl htight).elim⟩
      | false =>
        have heq : s.makeRoom ok = s := if_neg (by rw [htight]; decide)
        rw [heq]
        refine ⟨fun hf => ?_, fun hf => h.putLine_cut htight (Nat.not_lt.mp fun hlt => hf ?_)⟩
        · have hfit := (hf hactive hmore line hline).resolve_left (by rw [htight]; decide)
          exact hput hrunning hactive (h.putLine _ hfit)
        · intro _ _ line' hline'
          obtain rfl := Option.some.inj (hline'.symm.trans hline)
          exact .inr hlt

theorem Sound.step {s : Download × List (List UInt8)} (h : Sound before s) (e : DownloadEvent) :
    (Fits s.1 e ↔ Whole (watch Download.step Download.texts s e)) ∧
      (Fits s.1 e → Sound before (watch Download.step Download.texts s e)) := by
  have hiff : ∀ {s'}, (Fits s.1 e → Sound before s') → (¬Fits s.1 e → ¬Whole s') →
      (Fits s.1 e ↔ Whole s') ∧ (Fits s.1 e → Sound before s') := fun hfits hcut =>
    ⟨⟨fun hf => (hfits hf).whole, fun hw => by_contra fun hf => hcut hf hw⟩, hfits⟩
  obtain ⟨s, l⟩ := s
  cases e with
  | log line =>
    exact hiff (fun _ => ⟨h.kept.congr rfl rfl rfl, h.failed, h.idle⟩)
      fun hf => (hf trivial).elim
  | begin header ok ok' =>
    refine hiff (fun _ => ?_) fun hf => (hf trivial).elim
    unfold watch Download.step Download.texts
    dsimp only
    split
    · exact h
    · exact h.kept.begin header
  | turn ok ok' =>
    unfold watch Download.step Download.texts
    dsimp only
    cases hactive : s.active with
    | false =>
      exact hiff (fun _ => h) fun hf => (hf fun ha => absurd ha (by rw [hactive]; decide)).elim
    | true =>
      cases hmore : s.more with
      | false =>
        exact hiff (fun _ => h.kept.leave h.failed hmore)
          fun hf => (hf fun _ hm => absurd hm (by rw [hmore]; decide)).elim
      | true =>
        obtain ⟨hsound, hcut⟩ := h.kept.body hactive hmore ok ok'
        exact hiff hsound hcut

theorem Sound.start (ring : Ring) (chunk : Memory) :
    Sound chunk (Download.start ring chunk, []) := by
  have hbounded : Bounded chunk (Download.start ring chunk) :=
    ⟨some [], .short (by decide) rfl rfl fun _ _ => rfl⟩
  exact ⟨.start hbounded rfl rfl, fun _ => rfl, fun _ => rfl⟩

theorem Bounded.run {es : List DownloadEvent} (h : Bounded before s) :
    Bounded before (es.foldl Download.step s) := by
  induction es generalizing s with
  | nil => exact h
  | cons e es ih => exact ih (h.step e)

theorem along_whole_iff (ring : Ring) (chunk : Memory) (es : List DownloadEvent) :
    Along Download.step Fits (.start ring chunk) es ↔
      Along (watch Download.step Download.texts)
        (fun s e => Whole (watch Download.step Download.texts s e)) (.start ring chunk, []) es := by
  rw [← Lib.along_watch Download.texts (Download.start ring chunk, [])]
  exact Along.iff_of_invariant Lib.along_true (Sound.start ring chunk)
    fun _ _ h _ => h.step _

/-- What is sent, with what is in the buffer, is whole rows and notices at every step of a run, if
    and only if the notice and the row of every turn fit. Nothing is written behind the buffer in
    any run. -/
theorem download_whole_iff (ring : Ring) (chunk : Memory) (es : List DownloadEvent) :
    (Along Download.step Fits (.start ring chunk) es ↔
      Along (watch Download.step Download.texts)
        (fun s e => Whole (watch Download.step Download.texts s e)) (.start ring chunk, []) es) ∧
    ∀ i, 1024 ≤ i → (es.foldl Download.step (.start ring chunk)).chunk i = chunk i := by
  refine ⟨along_whole_iff ring chunk es, fun i hi => ?_⟩
  have hbounded : Bounded chunk (es.foldl Download.step (.start ring chunk)) :=
    (Sound.start ring chunk).kept.bounded.run
  obtain ⟨r, hr⟩ := hbounded
  exact hr.beyond i hi

end

/-- A line with a tag and a message of the greatest length. -/
def longLine : LogLine :=
  { level := 'I', tag := List.replicate 31 97, msg := List.replicate 143 97 }

def plainHeader : DownloadHeader :=
  { version := [], version_le := by decide, boot := none, uptimeS := 0
    eth := ⟨false, 0, false, 0, 0⟩, serverIp := 0, port := 0, syslog := ⟨false, 0, 0, 0, 0, 0⟩
    levels := ⟨.info, .warn, .info⟩ }

/-- Six such lines. Four are read, and the fifth is overwritten before it is. -/
def overwrittenRun : List DownloadEvent :=
  List.replicate 6 (.log longLine) ++ [.begin plainHeader true true] ++
    List.replicate 4 (.turn true true) ++ List.replicate 127 (.log longLine) ++
    List.replicate 2 (.turn true true)

/-- The notice and the sixth row do not fit behind the four rows. -/
theorem download_whole_fails :
    ¬∀ (ring : Ring) (chunk : Memory) (es : List DownloadEvent),
      Along (watch Download.step Download.texts)
        (fun s e => Whole (watch Download.step Download.texts s e)) (.start ring chunk, []) es := by
  intro h
  exact absurd ((along_whole_iff _ _ _).mpr (h .start (fun _ => 0) overwrittenRun))
    (by decide +kernel)

end Download

end Web
end Wt32Router
