import Wt32Router.Web.LogPoll

/-!
# What a chain of log polls leaves out

A reader that sends back the number of each answer sees every line once, or is told how many
it does not see: by `lost` in front of a batch, by a gap inside it. The batch under way carries
the account (`Batch.Ok`), and its last field is the room that the reservation leaves: every
append below is one that fits.
-/

namespace Wt32Router
namespace Web

open Lib (Along ascii ascii_ofList_length decimal signedDecimal commaSeparated strtoul toNat_succ)
open Logs (LogLine Ring)

/-- The text of a batch of these entries. -/
def linesText (es : List Entry) : List UInt8 := linesHead ++ commaSeparated (es.map Entry.text)

/-- The account of a batch for the reader at `cursor`, in a ring of `total` lines so far, with
    `reserve` bytes of the buffer and its NUL still free. -/
structure Batch.Ok (total : Nat) (cursor : BitVec 32) (reserve : Nat) (b : Batch) : Prop where
  since_eq : b.since = cursor
  newest_le : b.newest.toNat ≤ total
  next_gt : b.since.toNat < b.next.toNat
  next_eq : b.since ≠ 0 → b.next.toNat = b.since.toNat + 1 + b.lost.toNat
  seq_eq : b.seq.toNat =
    b.next.toNat + gaps b.entries + b.gap.toNat + (numbers b.entries).length
  seq_le : b.seq.toNat ≤ b.newest.toNat + 1
  between : ∀ n ∈ numbers b.entries, b.since.toNat < n ∧ n < b.seq.toNat
  increasing : (numbers b.entries).Pairwise (· < ·)
  moved : b.entries ≠ [] → b.since.toNat + 1 < b.seq.toNat
  emitted_eq : b.emitted = b.entries.length
  resp_eq : b.resp = some (linesText b.entries)
  room : (linesText b.entries).length + reserve < logsRespSize

/-- The account of an answer. -/
structure Response.Accounted (r : Response) : Prop where
  /-- The cursor advances over the lines lost, skipped and shown, and no others. -/
  accounted : r.since ≠ 0 →
    r.seq.toNat = r.since.toNat + r.lost.toNat + gaps r.entries + (numbers r.entries).length
  /-- What is sent is the whole text, in the buffer. -/
  whole : r.body = some r.text ∧ r.text.length < logsRespSize
  /-- The cursor moves if there is something to move over. -/
  advances : r.since < r.newest → r.since < r.seq

/-- The account of the chain that `since` begins. -/
structure LogReader.Kept (since : BitVec 32) (s : LogReader) : Prop where
  /-- Each request is for the number of the answer before. -/
  echoed : s.answers.map Response.since ++ [s.cursor] = since :: s.answers.map Response.seq
  increasing : (s.answers.flatMap fun r => numbers r.entries).Pairwise (· < ·)
  accounted : ∀ r ∈ s.answers, r.Accounted

/-- There is a number for the next line, and one above it. -/
def LogReader.Room (s : LogReader) : LogEvent → Prop
  | .commit _ => s.ring.total.toNat + 2 < 2 ^ 32
  | _ => True

instance (s : LogReader) : ∀ e, Decidable (s.Room e)
  | .commit _ => inferInstanceAs (Decidable (_ < _))
  | .miss => isTrue trivial
  | .request _ => isTrue trivial
  | .turn _ => isTrue trivial

/-- The turns among the events. -/
def turns (es : List LogEvent) : Nat :=
  es.countP fun e => match e with
    | .turn _ => true
    | _ => false

structure LogReader.Ok (since : BitVec 32) (s : LogReader) : Prop
    extends LogReader.Kept since s where
  total_lt : s.ring.total.toNat + 1 < 2 ^ 32
  cursor_le : s.cursor.toNat ≤ s.ring.total.toNat
  below : ∀ n ∈ s.answers.flatMap fun r => numbers r.entries, n ≤ s.cursor.toNat
  batch : ∀ b, s.batch = some b →
    b.Ok s.ring.total.toNat s.cursor (logsGapMax + logsTrailerMax)

section

variable {ring : Ring} {total reserve : Nat} {cursor since seq n : BitVec 32} {b : Batch}
  {es : List Entry} {e : Entry} {line : LogLine} {levels : LogLevels} {syslog : SyslogStatus}

/-! ### Texts and their lengths -/

theorem linesText_concat :
    linesText (es ++ [e]) = linesText es ++ ((if es = [] then [] else [44]) ++ e.text) := by
  unfold linesText
  rw [List.map_append, List.map_singleton, Lib.commaSeparated_concat]
  cases es <;> simp

theorem gapText_length (n : BitVec 32) : (gapText n).length ≤ 18 := by
  have := Lib.decimal_length_u32 n
  simp [gapText, ascii]
  omega

theorem lineHead_length (seq : BitVec 32) (line : LogLine) :
    (lineHead seq line).length ≤ 44 := by
  have := Lib.decimal_length_u32 seq
  have := Lib.decimal_length_u32 line.tsMs
  simp [lineHead, ascii]
  omega

theorem boolText_length (b : Bool) : (boolText b).length ≤ 5 := by
  cases b <;> decide

theorem trailer_length (seq lost missed : BitVec 32) (more restarted : Bool)
    (levels : LogLevels) :
    (trailer seq lost missed more restarted levels).length ≤ 153 := by
  have := Lib.decimal_length_u32 seq
  have := Lib.decimal_length_u32 lost
  have := Lib.decimal_length_u32 missed
  have := boolText_length more
  have := boolText_length restarted
  have hcapture := logLevelName_length levels.capture
  have hserial := logLevelName_length levels.serial
  have hbuild := logLevelName_length levels.build
  have hseq : (ascii "],\"seq\":").length = 8 := ascii_ofList_length _
  have hlost : (ascii ",\"lost\":").length = 8 := ascii_ofList_length _
  have hmissed : (ascii ",\"missed\":").length = 10 := ascii_ofList_length _
  have hmore : (ascii ",\"more\":").length = 8 := ascii_ofList_length _
  have hrestarted : (ascii ",\"restarted\":").length = 13 := ascii_ofList_length _
  have hlevel : (ascii ",\"level\":\"").length = 10 := ascii_ofList_length _
  have hserialKey : (ascii "\",\"serial_level\":\"").length = 18 := ascii_ofList_length _
  have hmaxKey : (ascii "\",\"max_level\":\"").length = 15 := ascii_ofList_length _
  have hquote : (ascii "\"").length = 1 := ascii_ofList_length _
  unfold trailer
  simp only [List.length_append]
  omega

theorem syslogTrailer_length (st : SyslogStatus) : (syslogTrailer st).length ≤ 155 := by
  have := Lib.decimal_length_u32 st.sent
  have := Lib.decimal_length_u32 st.agedOut
  have := Lib.decimal_length_u32 st.sendFail
  have := Lib.decimal_length_u32 st.backlog
  have := Lib.signedDecimal_length_i32 st.lastErrno
  have := boolText_length st.enabled
  have henabled : (ascii ",\"syslog_enabled\":").length = 18 := ascii_ofList_length _
  have hsent : (ascii ",\"syslog_sent\":").length = 15 := ascii_ofList_length _
  have haged : (ascii ",\"syslog_aged\":").length = 15 := ascii_ofList_length _
  have hfailed : (ascii ",\"syslog_failed\":").length = 17 := ascii_ofList_length _
  have herrno : (ascii ",\"syslog_errno\":").length = 16 := ascii_ofList_length _
  have hbacklog : (ascii ",\"syslog_backlog\":").length = 18 := ascii_ofList_length _
  unfold syslogTrailer
  simp only [List.length_append]
  omega

/-! ### The range of a request -/

theorem oldest_bounds (ring : Ring) :
    1 ≤ ring.getRange.1.toNat ∧ ring.getRange.1.toNat ≤ ring.total.toNat + 1 := by
  rw [Logs.getRange_oldest]
  unfold Logs.logBufLines
  split <;> omega

/-- A request for a number that was given out. -/
theorem start_ok (hlt : ring.total.toNat + 1 < 2 ^ 32) (hle : since.toNat ≤ ring.total.toNat) :
    (Batch.start ring since syslog).Ok ring.total.toNat since (logsGapMax + logsTrailerMax) := by
  obtain ⟨hlo, hhi⟩ := oldest_bounds ring
  have hrestarted : ¬ ring.getRange.2.1 < since := by
    rw [BitVec.lt_def]
    exact Nat.not_lt.mpr hle
  have hnext : (since + 1).toNat = since.toNat + 1 := toNat_succ (by omega)
  have hseq : (Batch.start ring since syslog).seq = (Batch.start ring since syslog).next := rfl
  have hstart : (Batch.start ring since syslog).next =
      if since + 1 < ring.getRange.1 then ring.getRange.1 else since + 1 := by
    simp [Batch.start, hrestarted]
  have hgt : since.toNat < (Batch.start ring since syslog).next.toNat := by
    rw [hstart]
    split
    · rename_i hlate
      rw [BitVec.lt_def] at hlate
      omega
    · omega
  refine
    { since_eq := rfl
      newest_le := Nat.le_refl _
      next_gt := hgt
      next_eq := fun hsince => ?_
      seq_eq := rfl
      seq_le := ?_
      between := fun n hn => absurd hn (by simp [Batch.start, numbers])
      increasing := List.Pairwise.nil
      moved := fun h => absurd rfl h
      emitted_eq := rfl
      resp_eq :=
        show respAppend logsRespSize (some []) linesHead = some (linesText []) by decide
      room := show (linesText []).length + (logsGapMax + logsTrailerMax) < logsRespSize by decide }
  · have hlost : (Batch.start ring since syslog).lost =
        if since + 1 < ring.getRange.1 then ring.getRange.1 - (since + 1) else 0 := by
      have hne : since ≠ 0#32 := hsince
      simp [Batch.start, hrestarted, hne]
    rw [hstart, hlost]
    show _ = since.toNat + 1 + _
    split
    · rename_i hlate
      rw [BitVec.toNat_sub_of_le (BitVec.le_of_lt hlate), hnext]
      rw [BitVec.lt_def] at hlate
      omega
    · exact hnext
  · rw [hseq, hstart]
    show _ ≤ ring.total.toNat + 1
    split <;> omega

/-! ### A turn of the loop -/

theorem numbers_append (es fs : List Entry) : numbers (es ++ fs) = numbers es ++ numbers fs :=
  List.filterMap_append

theorem gaps_append (es fs : List Entry) : gaps (es ++ fs) = gaps es + gaps fs := by
  simp [gaps]

theorem Batch.Ok.resp_append {text : List UInt8} {k : Nat} (h : b.Ok total cursor k)
    (hk : text.length ≤ k) :
    respAppend logsRespSize b.resp text = some (linesText b.entries ++ text) := by
  have hroom := h.room
  rw [h.resp_eq]
  exact respAppend_some (by omega)

theorem Batch.Ok.comma_eq (h : b.Ok total cursor reserve) :
    b.comma = if b.entries = [] then [] else [44] := by
  unfold Batch.comma
  simp [h.emitted_eq]

theorem Batch.comma_length (b : Batch) : b.comma.length ≤ 1 := by
  unfold Batch.comma
  split <;> simp

/-- A line that is gone. -/
theorem Batch.Ok.skip (h : b.Ok total cursor reserve) (htotal : total + 1 < 2 ^ 32)
    (hmore : b.seq.toNat ≤ b.newest.toNat) : b.skip.Ok total cursor reserve := by
  have hnewest := h.newest_le
  have hseq := h.seq_eq
  have hnext : (b.seq + 1).toNat = b.seq.toNat + 1 := toNat_succ (by omega)
  have hgap : (b.gap + 1).toNat = b.gap.toNat + 1 := toNat_succ (by omega)
  exact
    { since_eq := h.since_eq
      newest_le := hnewest
      next_gt := h.next_gt
      next_eq := h.next_eq
      seq_eq := by
        show (b.seq + 1).toNat = b.next.toNat + gaps b.entries + (b.gap + 1).toNat
          + (numbers b.entries).length
        omega
      seq_le := by
        show (b.seq + 1).toNat ≤ b.newest.toNat + 1
        omega
      between := fun n hn => by
        obtain ⟨hlo, hhi⟩ := h.between n hn
        exact ⟨hlo, show n < (b.seq + 1).toNat by omega⟩
      increasing := h.increasing
      moved := fun hne => by
        have := h.moved hne
        show b.since.toNat + 1 < (b.seq + 1).toNat
        omega
      emitted_eq := h.emitted_eq
      resp_eq := h.resp_eq
      room := h.room }

/-- A pending gap goes in front of what follows it. -/
theorem Batch.Ok.putGap (h : b.Ok total cursor (reserve + logsGapMax)) :
    b.putGap.Ok total cursor reserve := by
  unfold Batch.putGap
  split
  · rename_i hpos
    rw [BitVec.lt_def] at hpos
    have htext : b.comma ++ gapText b.gap =
        (if b.entries = [] then [] else [44]) ++ (Entry.gap b.gap).text := by
      rw [h.comma_eq]
      rfl
    have hlen : (b.comma ++ gapText b.gap).length ≤ 19 := by
      have := gapText_length b.gap
      have := b.comma_length
      rw [List.length_append]
      omega
    have hnumbers : numbers (b.entries ++ [Entry.gap b.gap]) = numbers b.entries := by
      rw [numbers_append]
      exact List.append_nil _
    have hgaps : gaps (b.entries ++ [Entry.gap b.gap]) = gaps b.entries + b.gap.toNat := by
      rw [gaps_append]
      rfl
    have hseq := h.seq_eq
    have hgt := h.next_gt
    exact
      { since_eq := h.since_eq
        newest_le := h.newest_le
        next_gt := hgt
        next_eq := h.next_eq
        seq_eq := by
          show b.seq.toNat = b.next.toNat + gaps (b.entries ++ [Entry.gap b.gap]) + 0 + _
          rw [hgaps, hnumbers]
          omega
        seq_le := h.seq_le
        between := fun n hn => h.between n (hnumbers ▸ hn)
        increasing := by
          show (numbers (b.entries ++ [Entry.gap b.gap])).Pairwise _
          rw [hnumbers]
          exact h.increasing
        moved := fun _ => by
          show b.since.toNat + 1 < b.seq.toNat
          simp at hpos
          omega
        emitted_eq := by
          show b.emitted + 1 = (b.entries ++ [Entry.gap b.gap]).length
          rw [h.emitted_eq, List.length_append, List.length_singleton]
        resp_eq := by
          show respAppend _ _ _ = _
          rw [h.resp_append (by unfold logsGapMax; omega), htext, ← linesText_concat]
        room := by
          have hroom := h.room
          show (linesText (b.entries ++ [Entry.gap b.gap])).length + reserve < logsRespSize
          rw [linesText_concat, ← htext, List.length_append]
          unfold logsGapMax at hroom
          omega }
  · exact { h with room := by have := h.room; omega }

/-- A line fits in what is reserved for it. -/
theorem putLine_resp (line : LogLine) {text : List UInt8} (hresp : b.resp = some text)
    (hroom : text.length + needed line < logsRespSize) :
    (b.putLine line).resp = some (text ++ (b.comma ++ (Entry.line b.seq line).text)) ∧
      (b.comma ++ (Entry.line b.seq line).text).length ≤ needed line := by
  have htext : text ++ (b.comma ++ (Entry.line b.seq line).text) =
      text ++ (b.comma ++ lineHead b.seq line) ++ escaped line.tag
        ++ ascii "\",\"m\":\"" ++ escaped line.msg ++ ascii "\"\x7d" := by
    simp only [Entry.text, List.append_assoc]
  have hlen := congrArg List.length htext
  have hhead : (b.comma ++ lineHead b.seq line).length ≤ 45 := by
    have := b.comma_length
    have := lineHead_length b.seq line
    rw [List.length_append]
    omega
  have htag := escaped_length line.tag
  have hmsg := escaped_length line.msg
  have hmid : (ascii "\",\"m\":\"").length = 7 := by decide
  have hend : (ascii "\"\x7d").length = 2 := by decide
  unfold needed at hroom ⊢
  rw [htext]
  refine ⟨?_, by simp only [List.length_append] at hhead hlen ⊢; omega⟩
  show respAppend _ (jsonAppendEscaped _ (respAppend _ (jsonAppendEscaped _
    (respAppend _ b.resp _) _) _) _) _ = _
  rw [hresp, respAppend_some, jsonAppendEscaped_some, respAppend_some, jsonAppendEscaped_some,
    respAppend_some]
  all_goals
    simp only [List.length_append] at hhead ⊢
    omega

/-- A line that is shown. -/
theorem Batch.Ok.putLine (h : b.Ok total cursor (reserve + needed line))
    (htotal : total + 1 < 2 ^ 32) (hmore : b.seq.toNat ≤ b.newest.toNat) :
    (b.putLine line).Ok total cursor reserve := by
  have hroom := h.room
  obtain ⟨hresp, hlen⟩ := putLine_resp line h.resp_eq (by omega)
  have htext : linesText (b.entries ++ [Entry.line b.seq line]) =
      linesText b.entries ++ (b.comma ++ (Entry.line b.seq line).text) := by
    rw [linesText_concat, h.comma_eq]
  have hnewest := h.newest_le
  have hseq := h.seq_eq
  have hgt := h.next_gt
  have hnext : (b.seq + 1).toNat = b.seq.toNat + 1 := toNat_succ (by omega)
  have hnumbers : numbers (b.putLine line).entries = numbers b.entries ++ [b.seq.toNat] :=
    numbers_append _ _
  have hgaps : gaps (b.putLine line).entries = gaps b.entries := gaps_append _ _
  exact
    { since_eq := h.since_eq
      newest_le := hnewest
      next_gt := hgt
      next_eq := h.next_eq
      seq_eq := by
        rw [hgaps, hnumbers, List.length_append, List.length_singleton, putLine_seq, putLine_next,
          putLine_gap]
        omega
      seq_le := by
        rw [putLine_seq, putLine_newest]
        omega
      between := fun n hn => by
        rw [hnumbers] at hn
        rw [putLine_since, putLine_seq]
        rcases List.mem_append.mp hn with hold | hlast
        · obtain ⟨hlo, hhi⟩ := h.between n hold
          omega
        · obtain rfl := List.mem_singleton.mp hlast
          omega
      increasing := by
        rw [hnumbers, List.pairwise_append]
        refine ⟨h.increasing, List.pairwise_singleton _ _, fun n hn m hm => ?_⟩
        rw [List.mem_singleton.mp hm]
        exact (h.between n hn).2
      moved := fun _ => by
        rw [putLine_since, putLine_seq]
        omega
      emitted_eq := by
        rw [putLine_emitted, h.emitted_eq, putLine_entries, List.length_append,
          List.length_singleton]
      resp_eq := by rw [hresp, putLine_entries, htext]
      room := by
        rw [putLine_entries, htext, List.length_append]
        omega }

/-! ### The way out -/

theorem finish_numbers (b : Batch) (levels : LogLevels) :
    numbers (b.finish levels).entries = numbers b.entries := by
  show numbers b.putGap.entries = _
  unfold Batch.putGap
  split
  · exact (numbers_append _ _).trans (List.append_nil _)
  · rfl

theorem finish_gaps (b : Batch) (levels : LogLevels) :
    gaps (b.finish levels).entries = gaps b.entries + b.gap.toNat := by
  show gaps b.putGap.entries = _
  unfold Batch.putGap
  split
  · exact gaps_append _ _
  · rename_i hno
    have hzero : b.gap.toNat = 0 := by
      rw [BitVec.lt_def] at hno
      exact Nat.eq_zero_of_not_pos hno
    rw [hzero]
    rfl

theorem Batch.Ok.finish_seq (h : b.Ok total cursor reserve) (levels : LogLevels) :
    (b.finish levels).seq.toNat + 1 = b.seq.toNat := by
  have hgt := h.next_gt
  have hseq := h.seq_eq
  show (b.seq - 1).toNat + 1 = _
  rw [BitVec.toNat_sub_of_le (BitVec.le_def.mpr (by simp; omega))]
  simp
  omega

/-- The room left is enough for the way out. -/
theorem Batch.Ok.finish_whole (h : b.Ok total cursor (logsGapMax + logsTrailerMax))
    (levels : LogLevels) :
    (b.finish levels).body = some (b.finish levels).text ∧
      (b.finish levels).text.length < logsRespSize := by
  have hlast : b.putGap.Ok total cursor logsTrailerMax :=
    Batch.Ok.putGap (by rwa [Nat.add_comm] at h)
  have htext : (b.finish levels).text = linesText b.putGap.entries
      ++ trailer (b.seq - 1) b.lost b.missed (decide (b.seq ≤ b.newest)) b.restarted levels
      ++ syslogTrailer b.syslog ++ ascii "\x7d" := rfl
  have hroom := hlast.room
  have htrailer :=
    trailer_length (b.seq - 1) b.lost b.missed (decide (b.seq ≤ b.newest)) b.restarted levels
  have hsyslog := syslogTrailer_length b.syslog
  have hend : (ascii "\x7d").length = 1 := by decide
  unfold logsTrailerMax at hroom
  rw [htext]
  have hlen : (linesText b.putGap.entries
      ++ trailer (b.seq - 1) b.lost b.missed (decide (b.seq ≤ b.newest)) b.restarted levels
      ++ syslogTrailer b.syslog ++ ascii "\x7d").length < logsRespSize := by
    simp only [List.length_append]
    omega
  refine ⟨?_, hlen⟩
  show respSendJson _ (respAppend _ (respAppend _ (respAppend _ b.putGap.resp _) _) _) = _
  rw [hlast.resp_append (by unfold logsTrailerMax; omega), respAppend_some, respAppend_some,
    respSendJson_some hlen]
  all_goals
    simp only [List.length_append]
    omega

/-- The header alone leaves room for any line. -/
theorem Batch.Ok.entries_of_full (h : b.Ok total cursor reserve)
    (hfull : b.full (copyOut line) = true) : b.entries ≠ [] := by
  intro hnil
  have hoff : b.resp.off logsRespSize = 10 := by
    rw [h.resp_eq, hnil]
    decide
  obtain ⟨htag, hmsg⟩ := copyOut_length line
  unfold Batch.full needed at hfull
  rw [hoff, decide_eq_true_eq] at hfull
  unfold logsRespSize logsGapMax logsTrailerMax at hfull
  omega

/-- The loop ends past the range, or at a line that is for the next request. -/
theorem Batch.Ok.finish (h : b.Ok total cursor (logsGapMax + logsTrailerMax))
    (hstop : b.newest.toNat < b.seq.toNat ∨ ∃ line, b.full (copyOut line) = true)
    (levels : LogLevels) : (b.finish levels).Accounted where
  accounted hsince := by
    have hseq := h.finish_seq levels
    have hacc := h.seq_eq
    have hnext := h.next_eq hsince
    rw [finish_numbers, finish_gaps]
    show _ = b.since.toNat + b.lost.toNat + _ + _
    omega
  whole := h.finish_whole levels
  advances hnew := by
    have hseq := h.finish_seq levels
    have hlt : b.since.toNat < b.newest.toNat := BitVec.lt_def.mp hnew
    rw [BitVec.lt_def]
    show b.since.toNat < _
    rcases hstop with hpast | ⟨line, hfull⟩
    · omega
    · have := h.moved (h.entries_of_full hfull)
      omega

/-! ### Runs -/

/-- What a turn can do. -/
theorem turn_cases (b : Batch) (ring : Ring) (levels : LogLevels) :
    (b.seq.toNat ≤ b.newest.toNat ∧ b.turn ring levels = .inl b.skip) ∨
      (∃ line, b.seq.toNat ≤ b.newest.toNat ∧ b.full (copyOut line) = false ∧
        b.turn ring levels = .inl (b.putGap.putLine (copyOut line))) ∨
      ((b.newest.toNat < b.seq.toNat ∨ ∃ line, b.full (copyOut line) = true) ∧
        b.turn ring levels = .inr (b.finish levels)) := by
  unfold Batch.turn
  by_cases hmore : b.seq ≤ b.newest
  · rw [if_pos hmore]
    cases ring.getLine b.seq with
    | none => exact .inl ⟨BitVec.le_def.mp hmore, rfl⟩
    | some line =>
      cases hfull : b.full (copyOut line) with
      | true => exact .inr (.inr ⟨.inr ⟨line, hfull⟩, by simp [hfull]⟩)
      | false => exact .inr (.inl ⟨line, BitVec.le_def.mp hmore, hfull, by simp [hfull]⟩)
  · rw [if_neg hmore]
    exact .inr (.inr ⟨.inl (Nat.lt_of_not_le fun hle => hmore (BitVec.le_def.mpr hle)), rfl⟩)

/-- The reservation covers the gap before the line, the line, and the way out after it. -/
theorem Batch.Ok.reserved (h : b.Ok total cursor reserve) (hfull : b.full line = false) :
    b.Ok total cursor (logsGapMax + logsTrailerMax + needed line + logsGapMax) := by
  refine { h with room := ?_ }
  unfold Batch.full at hfull
  rw [h.resp_eq, decide_eq_false_iff_not] at hfull
  have hoff : (linesText b.entries).length + needed line + 2 * logsGapMax + logsTrailerMax <
      logsRespSize := Nat.lt_of_not_le hfull
  omega

theorem Batch.Ok.mono (h : b.Ok total cursor reserve) {more : Nat} (hle : total ≤ more) :
    b.Ok more cursor reserve := { h with newest_le := Nat.le_trans h.newest_le hle }

/-- A turn that stays in the loop takes one number. -/
theorem Batch.Ok.turn_inl {b₁ : Batch} (h : b.Ok total cursor (logsGapMax + logsTrailerMax))
    (htotal : total + 1 < 2 ^ 32) (hturn : b.turn ring levels = .inl b₁) :
    b₁.Ok total cursor (logsGapMax + logsTrailerMax) ∧ b₁.newest = b.newest ∧
      b₁.seq = b.seq + 1 ∧ b.seq.toNat ≤ b.newest.toNat := by
  rcases turn_cases b ring levels with ⟨hmore, heq⟩ | ⟨line, hmore, hfull, heq⟩ | ⟨_, heq⟩
  · obtain rfl := Sum.inl.inj (hturn.symm.trans heq)
    exact ⟨h.skip htotal hmore, rfl, rfl, hmore⟩
  · obtain rfl := Sum.inl.inj (hturn.symm.trans heq)
    have hline := (h.reserved hfull).putGap.putLine htotal (by rwa [putGap_seq, putGap_newest])
    exact ⟨hline, by simp, by simp, hmore⟩
  · exact absurd (hturn.symm.trans heq) (by simp)

theorem turn_inr {r : Response} (hturn : b.turn ring levels = .inr r) :
    (b.newest.toNat < b.seq.toNat ∨ ∃ line, b.full (copyOut line) = true) ∧
      r = b.finish levels := by
  rcases turn_cases b ring levels with ⟨_, heq⟩ | ⟨line, _, _, heq⟩ | ⟨hstop, heq⟩
  · exact absurd (hturn.symm.trans heq) (by simp)
  · exact absurd (hturn.symm.trans heq) (by simp)
  · exact ⟨hstop, Sum.inr.inj (hturn.symm.trans heq)⟩

end

section

variable {s : LogReader} {since : BitVec 32} {e : LogEvent} {es : List LogEvent} {b : Batch}
  {levels : LogLevels} {ring : Ring}

theorem start_reader_ok (hlt : ring.total.toNat + 1 < 2 ^ 32)
    (hle : since.toNat ≤ ring.total.toNat) : (LogReader.start ring since).Ok since where
  echoed := rfl
  increasing := List.Pairwise.nil
  accounted r hr := absurd hr (List.not_mem_nil)
  total_lt := hlt
  cursor_le := hle
  below n hn := absurd hn (List.not_mem_nil)
  batch b hb := absurd hb (by simp [LogReader.start])

/-- An answer takes the chain on. -/
theorem LogReader.Ok.answer (h : s.Ok since) (hb : s.batch = some b)
    (hstop : b.newest.toNat < b.seq.toNat ∨ ∃ line, b.full (copyOut line) = true)
    (levels : LogLevels) :
    LogReader.Ok since { s with
      batch := none, cursor := (b.finish levels).seq
      answers := s.answers ++ [b.finish levels] } := by
  have hok := h.batch b hb
  have hseq := hok.finish_seq levels
  have hgt := hok.next_gt
  have hacc := hok.seq_eq
  have hsince : b.since = s.cursor := hok.since_eq
  have hforward : s.cursor.toNat ≤ (b.finish levels).seq.toNat := by
    rw [← hsince]
    omega
  have hnumbers := finish_numbers b levels
  have hlast : ((s.answers ++ [b.finish levels]).flatMap fun r => numbers r.entries) =
      (s.answers.flatMap fun r => numbers r.entries) ++ numbers b.entries := by
    simp [hnumbers]
  exact
    { echoed := by
        show (s.answers ++ [b.finish levels]).map Response.since ++ _ =
          since :: (s.answers ++ [b.finish levels]).map Response.seq
        rw [List.map_append, List.map_append, List.map_singleton, List.map_singleton,
          show (b.finish levels).since = s.cursor from hsince, h.echoed, List.cons_append]
      increasing := by
        show ((s.answers ++ [b.finish levels]).flatMap _).Pairwise _
        rw [hlast, List.pairwise_append]
        exact ⟨h.increasing, hok.increasing, fun n hn m hm =>
          Nat.lt_of_le_of_lt (h.below n hn) (hsince ▸ (hok.between m hm).1)⟩
      accounted := fun r hr => by
        rcases List.mem_append.mp hr with hold | hnew
        · exact h.accounted r hold
        · obtain rfl := List.mem_singleton.mp hnew
          exact hok.finish hstop levels
      total_lt := h.total_lt
      cursor_le := by
        have hle := hok.seq_le
        have hnewest := hok.newest_le
        show (b.finish levels).seq.toNat ≤ s.ring.total.toNat
        omega
      below := fun n hn => by
        rw [hlast] at hn
        show n ≤ (b.finish levels).seq.toNat
        rcases List.mem_append.mp hn with hold | hnew
        · exact Nat.le_trans (h.below n hold) hforward
        · have := (hok.between n hnew).2
          omega
      batch := fun b hb => absurd hb (by simp) }

theorem LogReader.Ok.step (h : s.Ok since) (hroom : s.Room e) : (s.step e).Ok since := by
  cases e with
  | commit line =>
    have hroom : s.ring.total.toNat + 2 < 2 ^ 32 := hroom
    have htotal : (s.ring.total + 1).toNat = s.ring.total.toNat + 1 := toNat_succ (by omega)
    have hcursor := h.cursor_le
    exact
      { h with
        total_lt := by
          show (s.ring.total + 1).toNat + 1 < _
          omega
        cursor_le := by
          show s.cursor.toNat ≤ (s.ring.total + 1).toNat
          omega
        batch := fun b hb => (h.batch b hb).mono (by
          show s.ring.total.toNat ≤ (s.ring.total + 1).toNat
          omega) }
  | miss => exact { h with }
  | request syslog =>
    unfold LogReader.step
    dsimp only
    cases hb : s.batch with
    | none =>
      refine { h with batch := fun b heq => ?_ }
      obtain rfl := Option.some.inj heq
      rw [Lib.strtoul_decimal]
      exact start_ok h.total_lt h.cursor_le
    | some b => exact h
  | turn levels =>
    unfold LogReader.step
    dsimp only
    cases hb : s.batch with
    | none => exact h
    | some b =>
      dsimp only
      cases hturn : b.turn s.ring levels with
      | inl b₁ =>
        refine { h with batch := fun b₂ heq => ?_ }
        obtain rfl := Option.some.inj heq
        exact ((h.batch b hb).turn_inl h.total_lt hturn).1
      | inr r =>
        obtain ⟨hstop, rfl⟩ := turn_inr hturn
        exact h.answer hb hstop levels

theorem LogReader.Ok.run (h : s.Ok since) (hroom : Along LogReader.step LogReader.Room s es) :
    (es.foldl LogReader.step s).Ok since :=
  hroom.invariant h fun _ _ hok hr => hok.step hr

/-! ### Every request is answered -/

theorem step_turn_inl {b₁ : Batch} (hb : s.batch = some b)
    (hturn : b.turn s.ring levels = .inl b₁) :
    s.step (.turn levels) = { s with batch := some b₁ } := by
  simp [LogReader.step, hb, hturn]

theorem step_turn_inr {r : Response} (hb : s.batch = some b)
    (hturn : b.turn s.ring levels = .inr r) :
    s.step (.turn levels) =
      { s with batch := none, cursor := r.seq, answers := s.answers ++ [r] } := by
  simp [LogReader.step, hb, hturn]

theorem step_answers (s : LogReader) (e : LogEvent) :
    s.answers.length ≤ (s.step e).answers.length := by
  unfold LogReader.step
  cases e with
  | commit line => exact Nat.le_refl _
  | miss => exact Nat.le_refl _
  | request syslog =>
    dsimp only
    split <;> exact Nat.le_refl _
  | turn levels =>
    dsimp only
    split
    · exact Nat.le_refl _
    · split
      · exact Nat.le_refl _
      · simp

theorem run_answers (s : LogReader) (es : List LogEvent) :
    s.answers.length ≤ (es.foldl LogReader.step s).answers.length := by
  induction es generalizing s with
  | nil => exact Nat.le_refl _
  | cons e es ih => exact Nat.le_trans (step_answers s e) (ih (s.step e))

/-- However many lines come in meanwhile, a request is answered within one turn for each number
    of its range, and one more. -/
theorem LogReader.Ok.answered (h : s.Ok since) (hb : s.batch = some b)
    (hroom : Along LogReader.step LogReader.Room s es)
    (hturns : b.newest.toNat + 2 ≤ b.seq.toNat + turns es) :
    s.answers.length < (es.foldl LogReader.step s).answers.length := by
  induction es generalizing s b with
  | nil =>
    have hle := (h.batch b hb).seq_le
    have hnone : turns [] = 0 := rfl
    omega
  | cons e es ih =>
    obtain ⟨hr, hrest⟩ := hroom
    have hnext := h.step hr
    rw [List.foldl_cons]
    cases e with
    | commit line => exact ih (s := s.step (.commit line)) hnext hb hrest hturns
    | miss => exact ih (s := s.step .miss) hnext hb hrest hturns
    | request syslog =>
      have hsame : s.step (.request syslog) = s := by
        unfold LogReader.step
        simp [hb]
      rw [hsame] at hrest ⊢
      exact ih h hb hrest hturns
    | turn levels =>
      have hcount : turns (LogEvent.turn levels :: es) = turns es + 1 := by simp [turns]
      rw [hcount] at hturns
      cases hturn : b.turn s.ring levels with
      | inl b₁ =>
        have hstep := step_turn_inl hb hturn
        obtain ⟨hok, hnewest, hseq, hmore⟩ := (h.batch b hb).turn_inl h.total_lt hturn
        have hle := (h.batch b hb).newest_le
        have hlt := h.total_lt
        have hsucc : b₁.seq.toNat = b.seq.toNat + 1 := by
          rw [hseq]
          exact toNat_succ (by omega)
        rw [hstep] at hrest hnext ⊢
        exact ih hnext rfl hrest (by rw [hnewest, hsucc]; omega)
      | inr r =>
        have hle := run_answers (s.step (.turn levels)) es
        rw [step_turn_inr hb hturn] at hle ⊢
        rw [List.length_append, List.length_singleton] at hle
        omega

end

/-- **A reader of the log is told of every line.** In a ring of any content, from any number the
    reader may hold, and for any interleaving of its requests with lines that come in: the
    numbers shown never go back, each answer accounts for every number its cursor passes and is
    sent whole, and a request below the newest line moves the cursor. -/
theorem LogReader.polls_kept (ring : Ring) (since : BitVec 32) (es : List LogEvent)
    (hlt : ring.total.toNat + 1 < 2 ^ 32) (hle : since.toNat ≤ ring.total.toNat)
    (hroom : Along LogReader.step LogReader.Room (.start ring since) es) :
    (es.foldl LogReader.step (.start ring since)).Kept since ∧
      ∀ b, (es.foldl LogReader.step (.start ring since)).batch = some b → ∀ fs,
        Along LogReader.step LogReader.Room (es.foldl LogReader.step (.start ring since)) fs →
        b.newest.toNat + 2 ≤ b.seq.toNat + turns fs →
        (es.foldl LogReader.step (.start ring since)).answers.length <
          (fs.foldl LogReader.step
            (es.foldl LogReader.step (.start ring since))).answers.length := by
  have hok := (start_reader_ok hlt hle).run hroom
  exact ⟨hok.toKept, fun b hb fs hfs hturns => hok.answered hb hfs hturns⟩

def quietSyslog : SyslogStatus := ⟨false, 0, 0, 0, 0, 0⟩

def infoLevels : LogLevels := ⟨.info, .warn, .verbose⟩

/-- While a request for three lines is answered, a burst goes round the whole ring. -/
def burst : List LogEvent :=
  .request quietSyslog ::
    (List.replicate 130 (LogEvent.commit {}) ++ List.replicate 4 (LogEvent.turn infoLevels))

theorem LogReader.polls_kept_burst :
    ((burst.foldl LogReader.step (.start ⟨fun _ => {}, 131, 0⟩ 128)).answers.map fun r =>
        (r.seq, numbers r.entries, gaps r.entries)) = [(131, [], 3)] ∧
      (burst.foldl LogReader.step (.start ⟨fun _ => {}, 131, 0⟩ 128)).Kept 128 :=
  ⟨by decide +kernel,
    (LogReader.polls_kept ⟨fun _ => {}, 131, 0⟩ 128 burst (by decide) (by decide)
      (by decide +kernel)).1⟩

/-- A line of which three fill a response. -/
def longLine : LogLine := ⟨0, 'I', List.replicate 31 1, List.replicate 143 1⟩

/-- A ring whose last number is the last there is. -/
def lastRing : Ring := ⟨fun _ => longLine, 0xFFFFFFFF, 0⟩

def lastPoll : List LogEvent :=
  LogEvent.request quietSyslog :: List.replicate 4 (LogEvent.turn infoLevels)

/-- The batch of that poll after `k` lines. -/
def lastBatch : Nat → Batch
  | 0 => .start lastRing 0xFFFFFFFF quietSyslog
  | k + 1 => (lastBatch k).putLine longLine

/-- `lost` of the first request wraps: it is the number of the oldest line. -/
theorem lastBatch_fields (k : Nat) :
    (lastBatch k).since = 0xFFFFFFFF ∧ (lastBatch k).newest = 0xFFFFFFFF ∧
      (lastBatch k).lost = 0xFFFFFF80 ∧ (lastBatch k).gap = 0 := by
  induction k with
  | zero => exact ⟨rfl, rfl, by decide, rfl⟩
  | succ k ih => exact ih

/-- Three of these lines leave no room for a fourth, and two leave room. -/
theorem lastBatch_resp {k : Nat} (hk : k ≤ 3) :
    ∃ text, (lastBatch k).resp = some text ∧ 10 + 1044 * k ≤ text.length ∧
      text.length ≤ 10 + 1108 * k := by
  have hneeded : needed longLine = 1108 := by decide
  have htag : (escaped longLine.tag).length = 186 := by decide +kernel
  have hmsg : (escaped longLine.msg).length = 858 := by decide +kernel
  induction k with
  | zero => exact ⟨linesHead, rfl, by decide, by decide⟩
  | succ k ih =>
    obtain ⟨text, hresp, hlo, hhi⟩ := ih (by omega)
    obtain ⟨hput, hlen⟩ := putLine_resp longLine hresp (by
      rw [hneeded, logsRespSize]
      omega)
    refine ⟨_, hput, ?_, ?_⟩
    · simp only [List.length_append, Entry.text]
      omega
    · rw [List.length_append]
      omega

theorem lastBatch_seq (k : Nat) :
    (lastBatch k).seq = 0xFFFFFF80 + BitVec.ofNat 32 k := by
  induction k with
  | zero => decide
  | succ k ih =>
    show (lastBatch k).seq + 1 = _
    rw [ih, BitVec.add_assoc, BitVec.ofNat_add]
    rfl

theorem lastBatch_line {k : Nat} (hk : k ≤ 3) :
    (lastBatch k).seq ≤ 0xFFFFFFFF ∧ lastRing.getLine (lastBatch k).seq = some longLine := by
  rw [lastBatch_seq]
  have hle : 0xFFFFFF80 + BitVec.ofNat 32 k ≤ 0xFFFFFFFF := by bv_omega
  refine ⟨hle, if_pos ⟨?_, hle, ?_⟩⟩
  · bv_omega
  · show 0xFFFFFFFF - (0xFFFFFF80 + BitVec.ofNat 32 k) < BitVec.ofNat 32 128
    bv_omega

theorem longLine_copy : copyOut longLine = longLine ∧ needed longLine = 1108 :=
  ⟨by decide, by decide⟩

/-- A turn on a line for which there is room. -/
theorem turn_longLine {b : Batch} {text : List UInt8} (hmore : b.seq ≤ b.newest)
    (hline : lastRing.getLine b.seq = some longLine) (hgap : b.gap = 0)
    (hresp : b.resp = some text) (hlen : text.length < 2604) :
    b.turn lastRing infoLevels = .inl (b.putLine longLine) := by
  have hfull : b.full longLine = false := by
    unfold Batch.full Resp.off logsRespSize logsGapMax logsTrailerMax
    rw [hresp, decide_eq_false_iff_not, longLine_copy.2]
    dsimp only
    omega
  have hnogap : b.putGap = b := by
    unfold Batch.putGap
    rw [hgap]
    rfl
  unfold Batch.turn
  rw [if_pos hmore, hline]
  dsimp only
  rw [longLine_copy.1, hfull, hnogap]
  rfl

/-- A turn on a line that might not fit. -/
theorem turn_longLine_full {b : Batch} {text : List UInt8} (hmore : b.seq ≤ b.newest)
    (hline : lastRing.getLine b.seq = some longLine) (hresp : b.resp = some text)
    (hlen : 2604 ≤ text.length) : b.turn lastRing infoLevels = .inr (b.finish infoLevels) := by
  have hfull : b.full longLine = true := by
    unfold Batch.full Resp.off logsRespSize logsGapMax logsTrailerMax
    rw [hresp, decide_eq_true_eq, longLine_copy.2]
    dsimp only
    omega
  unfold Batch.turn
  rw [if_pos hmore, hline]
  dsimp only
  rw [longLine_copy.1, hfull]
  rfl

theorem lastBatch_turn {k : Nat} (hk : k < 3) :
    (lastBatch k).turn lastRing infoLevels = .inl (lastBatch (k + 1)) := by
  obtain ⟨_, hnewest, _, hgap⟩ := lastBatch_fields k
  obtain ⟨text, hresp, _, hlen⟩ := lastBatch_resp (Nat.le_of_lt hk)
  obtain ⟨hmore, hline⟩ := lastBatch_line (Nat.le_of_lt hk)
  exact turn_longLine (hnewest ▸ hmore) hline hgap hresp (by omega)

theorem lastBatch_stop :
    (lastBatch 3).turn lastRing infoLevels = .inr ((lastBatch 3).finish infoLevels) := by
  obtain ⟨_, hnewest, _, _⟩ := lastBatch_fields 3
  obtain ⟨text, hresp, hlen, _⟩ := lastBatch_resp (Nat.le_refl 3)
  obtain ⟨hmore, hline⟩ := lastBatch_line (Nat.le_refl 3)
  exact turn_longLine_full (hnewest ▸ hmore) hline hresp (by omega)

/-- The reader while that batch is put together. -/
def lastReader (k : Nat) : LogReader := ⟨lastRing, 0xFFFFFFFF, some (lastBatch k), []⟩

theorem lastReader_request :
    (LogReader.start lastRing 0xFFFFFFFF).step (.request quietSyslog) = lastReader 0 := by
  unfold LogReader.step LogReader.start
  dsimp only
  rw [Lib.strtoul_decimal]
  rfl

theorem lastReader_turn {k : Nat} (hk : k < 3) :
    (lastReader k).step (.turn infoLevels) = lastReader (k + 1) :=
  step_turn_inl (s := lastReader k) (b := lastBatch k) rfl (lastBatch_turn hk)

theorem lastReader_run {k : Nat} (hk : k ≤ 3) :
    (List.replicate k (LogEvent.turn infoLevels)).foldl LogReader.step (lastReader 0) =
      lastReader k := by
  induction k with
  | zero => rfl
  | succ k ih =>
    rw [List.replicate_succ', List.foldl_append, ih (by omega)]
    exact lastReader_turn (by omega)

theorem lastReader_stop :
    ((lastReader 3).step (.turn infoLevels)).answers = [(lastBatch 3).finish infoLevels] := by
  rw [step_turn_inr (s := lastReader 3) (b := lastBatch 3) rfl lastBatch_stop]
  rfl

/-- A cursor cannot move by more than there are numbers. -/
theorem Response.Accounted.no_wrap {r : Response} (h : r.Accounted) (hsince : r.since ≠ 0) :
    r.since.toNat + r.lost.toNat < 2 ^ 32 := by
  have := h.accounted hsince
  have := r.seq.isLt
  omega

/-- The reader that has every line of that ring is told that it lost almost all there are. -/
theorem LogReader.polls_lastNumber :
    lastRing.total.toNat < 2 ^ 32 ∧
      ¬ (lastPoll.foldl LogReader.step (.start lastRing 0xFFFFFFFF)).Kept 0xFFFFFFFF := by
  have hrun : lastPoll.foldl LogReader.step (.start lastRing 0xFFFFFFFF) =
      (lastReader 3).step (.turn infoLevels) := by
    unfold lastPoll
    rw [List.foldl_cons, lastReader_request, List.replicate_succ', List.foldl_append,
      lastReader_run (Nat.le_refl 3), List.foldl_cons, List.foldl_nil]
  rw [hrun]
  refine ⟨by decide, fun h => ?_⟩
  obtain ⟨hsince, _, hlost, _⟩ := lastBatch_fields 3
  have hacc := h.accounted ((lastBatch 3).finish infoLevels) (by
    rw [lastReader_stop]
    exact List.mem_singleton_self _)
  have hlt := hacc.no_wrap (by
    rw [finish_since, hsince]
    decide)
  rw [finish_since, finish_lost, hsince, hlost] at hlt
  exact absurd hlt (by decide)

end Web
end Wt32Router
