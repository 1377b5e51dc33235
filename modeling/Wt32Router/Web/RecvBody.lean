import Mathlib.Algebra.GroupWithZero.Nat
import Wt32Router.Lib.Source
import Wt32Router.Web.JsonGet

/-!
# The body of a request, as it arrives

`httpd_req_recv` "returns what one socket read produced, not what was asked for", and a gap between
two segments comes back as a timeout. `recv_body` asks again for what is missing, behind what it
has, and gives up at the fourth timeout of a body or at anything else that is no byte.

> **`recv_body_whole`**: it always returns, after a bounded number of reads; and then the whole
> body is in the buffer with a NUL behind it, or the client has been refused. Nothing is written
> behind the buffer.

The connection is a parameter here, and all that is known of it is that it `Delivers` the bytes of
the client in order. `Web/JsonGet.lean` has the function over the body as a value, for connections
that follow a script: `recvBodyAt_scripted` says that it is this one.
-/

namespace Wt32Router
namespace Web

open Lib (Delivers Memory ReadResult cString cString_append_nul load load_add load_succ store)

universe u

/-- `HTTPD_SOCK_ERR_TIMEOUT`. -/
def httpdSockErrTimeout : Int := -3

/-- What `recv_body` returns, the buffer and the connection it leaves, and the text of the 400 that
    it has answered with. -/
structure BodyResult (σ : Type u) where
  ret : BitVec 32
  buf : Memory
  conn : σ
  answer : Option String

/-- The call of `httpd_req_recv`, for all that is missing. -/
def readMissing {σ : Type u} (httpdReqRecv : σ → Nat → ReadResult σ) (contentLen : BitVec 32)
    (conn : σ) (total : BitVec 32) : ReadResult σ :=
  httpdReqRecv conn (contentLen - total).toNat

/-- The loop of `recv_body`, for so many turns; `none` is a turn it does not have. -/
def recvBodyLoop {σ : Type u} (httpdReqRecv : σ → Nat → ReadResult σ) (contentLen : BitVec 32) :
    Nat → σ → Memory → BitVec 32 → Nat → Option (BodyResult σ)
  | 0, _, _, _, _ => none
  | fuel + 1, conn, buf, total, timeouts =>
      if total < contentLen then
        let received := readMissing httpdReqRecv contentLen conn total
        let buf := store buf total.toNat received.data
        if 0 < received.ret then
          recvBodyLoop httpdReqRecv contentLen fuel received.next buf
            (total + BitVec.ofInt 32 received.ret) timeouts
        else if received.ret = httpdSockErrTimeout ∧ timeouts + 1 ≤ recvBodyMaxTimeouts then
          recvBodyLoop httpdReqRecv contentLen fuel received.next buf total (timeouts + 1)
        else some ⟨-1, buf, received.next, some "Failed to read body"⟩
      else some ⟨total, store buf total.toNat [0], conn, none⟩

/-- `recv_body`, with its loop for so many turns. -/
def recvBodyAt {σ : Type u} (httpdReqRecv : σ → Nat → ReadResult σ) (fuel : Nat) (conn : σ)
    (contentLen : BitVec 32) (buf : Memory) (bufsz : BitVec 32) : Option (BodyResult σ) :=
  if contentLen = 0 ∨ bufsz ≤ contentLen then
    some ⟨-1, buf, conn, some "Body missing or too large"⟩
  else recvBodyLoop httpdReqRecv contentLen fuel conn buf 0 0

/-- The announced number of bytes is in the buffer, which are the first that were to come, and a
    NUL behind them. No other byte was taken from the connection. -/
structure BodyWhole {σ : Type u} (rest : σ → List UInt8) (contentLen : BitVec 32)
    (sent : List UInt8) (out : BodyResult σ) : Prop where
  ret : out.ret = contentLen
  answer : out.answer = none
  body : load out.buf contentLen.toNat ++ rest out.conn = sent
  nul : out.buf contentLen.toNat = 0

/-- The client has been told, and the caller returns. -/
structure BodyRefused {σ : Type u} (msg : String) (out : BodyResult σ) : Prop where
  ret : out.ret = -1
  answer : out.answer = some msg

/-- What the loop keeps: what it has and what is still to come is what was sent. -/
structure Filling {σ : Type u} (rest : σ → List UInt8) (contentLen : BitVec 32)
    (sent : List UInt8) (conn : σ) (buf : Memory) (total : BitVec 32) (timeouts : Nat) : Prop where
  inside : total ≤ contentLen
  patience : timeouts ≤ recvBodyMaxTimeouts
  filled : load buf total.toNat ++ rest conn = sent

section

variable {σ : Type u} {recv : σ → Nat → ReadResult σ} {rest : σ → List UInt8} {sent : List UInt8}
  {conn : σ} {buf : Memory} {contentLen bufsz total : BitVec 32} {fuel n timeouts j : Nat}

/-! ## One turn -/

section

variable {r : ReadResult σ}

theorem loop_more (hlt : total < contentLen) (hr : readMissing recv contentLen conn total = r)
    (hret : 0 < r.ret) :
    recvBodyLoop recv contentLen (fuel + 1) conn buf total timeouts =
      recvBodyLoop recv contentLen fuel r.next (store buf total.toNat r.data)
        (total + BitVec.ofInt 32 r.ret) timeouts := by
  rw [recvBodyLoop, if_pos hlt, hr]
  exact if_pos hret

theorem loop_again (hlt : total < contentLen) (hr : readMissing recv contentLen conn total = r)
    (hret : r.ret = httpdSockErrTimeout) (hmore : timeouts + 1 ≤ recvBodyMaxTimeouts) :
    recvBodyLoop recv contentLen (fuel + 1) conn buf total timeouts =
      recvBodyLoop recv contentLen fuel r.next (store buf total.toNat r.data) total
        (timeouts + 1) := by
  have hnone : ¬ 0 < r.ret := by
    rw [hret]
    decide
  rw [recvBodyLoop, if_pos hlt, hr]
  dsimp only
  rw [if_neg hnone, if_pos ⟨hret, hmore⟩]

theorem loop_refused (hlt : total < contentLen) (hr : readMissing recv contentLen conn total = r)
    (hnone : ¬ 0 < r.ret)
    (hlast : ¬ (r.ret = httpdSockErrTimeout ∧ timeouts + 1 ≤ recvBodyMaxTimeouts)) :
    recvBodyLoop recv contentLen (fuel + 1) conn buf total timeouts =
      some ⟨-1, store buf total.toNat r.data, r.next, some "Failed to read body"⟩ := by
  rw [recvBodyLoop, if_pos hlt, hr]
  dsimp only
  rw [if_neg hnone, if_neg hlast]

theorem loop_done (hlt : ¬ total < contentLen) :
    recvBodyLoop recv contentLen (fuel + 1) conn buf total timeouts =
      some ⟨total, store buf total.toNat [0], conn, none⟩ := by
  rw [recvBodyLoop, if_neg hlt]

/-- What is read fits behind what there is. -/
theorem readMissing_length (h : Delivers recv rest httpdSockErrTimeout) (hle : total ≤ contentLen)
    (hr : readMissing recv contentLen conn total = r) :
    total.toNat + r.data.length ≤ contentLen.toNat := by
  have hinside : r.data.length ≤ (contentLen - total).toNat := hr ▸ h.inside conn _
  have hle' : total.toNat ≤ contentLen.toNat := hle
  rw [BitVec.toNat_sub_of_le hle] at hinside
  omega

/-- So the sum, which has 32 bits, is one. -/
theorem toNat_total (h : Delivers recv rest httpdSockErrTimeout) (hle : total ≤ contentLen)
    (hr : readMissing recv contentLen conn total = r) (hret : 0 < r.ret) :
    (total + BitVec.ofInt 32 r.ret).toNat = total.toNat + r.data.length := by
  have hlength := readMissing_length h hle hr
  have hcount : r.ret = r.data.length := by
    subst hr
    exact h.count conn _ hret
  have hbound := contentLen.isLt
  rw [hcount, BitVec.ofInt_natCast, BitVec.toNat_add, BitVec.toNat_ofNat]
  omega

theorem Filling.more (hf : Filling rest contentLen sent conn buf total timeouts)
    (h : Delivers recv rest httpdSockErrTimeout)
    (hr : readMissing recv contentLen conn total = r) (hret : 0 < r.ret) :
    Filling rest contentLen sent r.next (store buf total.toNat r.data)
      (total + BitVec.ofInt 32 r.ret) timeouts := by
  have htotal := toNat_total h hf.inside hr hret
  refine ⟨?_, hf.patience, ?_⟩
  · rw [BitVec.le_def, htotal]
    exact readMissing_length h hf.inside hr
  · rw [htotal, ← hf.filled]
    subst hr
    exact h.load_store hret

theorem Filling.again (hf : Filling rest contentLen sent conn buf total timeouts)
    (h : Delivers recv rest httpdSockErrTimeout)
    (hr : readMissing recv contentLen conn total = r) (hret : r.ret = httpdSockErrTimeout)
    (hmore : timeouts + 1 ≤ recvBodyMaxTimeouts) :
    Filling rest contentLen sent r.next (store buf total.toNat r.data) total (timeouts + 1) := by
  refine ⟨hf.inside, hmore, ?_⟩
  rw [← hf.filled]
  subst hr
  exact h.load_store_idle hret

/-- A turn writes nothing behind the announced length. -/
theorem readMissing_frame (h : Delivers recv rest httpdSockErrTimeout) (hle : total ≤ contentLen)
    (hr : readMissing recv contentLen conn total = r) (hj : contentLen.toNat ≤ j) :
    store buf total.toNat r.data j = buf j :=
  Lib.store_frame (.inr (Nat.le_trans (readMissing_length h hle hr) hj))

end

/-! ## The loop -/

/-- At the end of the loop nothing is missing. -/
theorem Filling.done (hf : Filling rest contentLen sent conn buf total timeouts)
    (hlt : ¬ total < contentLen) :
    BodyWhole rest contentLen sent ⟨total, store buf total.toNat [0], conn, none⟩ := by
  obtain rfl : total = contentLen := BitVec.le_antisymm hf.inside (BitVec.not_lt.mp hlt)
  refine ⟨rfl, rfl, ?_, Function.update_self _ _ _⟩
  rw [← hf.filled]
  exact congrArg (· ++ rest conn) (Lib.load_store_of_le (Nat.le_refl _))

/-- **The loop returns**: each turn takes a byte that is missing, or one of the timeouts that are
    left. -/
theorem recvBodyLoop_spec (h : Delivers recv rest httpdSockErrTimeout)
    (hf : Filling rest contentLen sent conn buf total timeouts)
    (hn : contentLen.toNat - total.toNat + (recvBodyMaxTimeouts - timeouts) < n) :
    ∃ out, (∀ fuel ≥ n, recvBodyLoop recv contentLen fuel conn buf total timeouts = some out) ∧
      (BodyWhole rest contentLen sent out ∨ BodyRefused "Failed to read body" out) ∧
      ∀ j, contentLen.toNat < j → out.buf j = buf j := by
  induction n generalizing conn buf total timeouts with
  | zero => exact absurd hn (Nat.not_lt_zero _)
  | succ n ih =>
    have hturn : ∀ {out}, (∀ fuel ≥ n,
        recvBodyLoop recv contentLen (fuel + 1) conn buf total timeouts = some out) →
        ∀ fuel ≥ n + 1, recvBodyLoop recv contentLen fuel conn buf total timeouts = some out := by
      intro out hrun fuel hfuel
      obtain ⟨fuel, rfl⟩ := Nat.exists_eq_succ_of_ne_zero (Nat.ne_zero_of_lt hfuel)
      exact hrun fuel (Nat.le_of_succ_le_succ hfuel)
    by_cases hlt : total < contentLen
    · have hmissing : total.toNat < contentLen.toNat := hlt
      obtain ⟨r, hr⟩ : ∃ r, readMissing recv contentLen conn total = r := ⟨_, rfl⟩
      have hkept : ∀ j, contentLen.toNat < j → store buf total.toNat r.data j = buf j :=
        fun j hj => readMissing_frame h hf.inside hr (Nat.le_of_lt hj)
      by_cases hret : 0 < r.ret
      · have htotal := toNat_total h hf.inside hr hret
        have hpos : 0 < r.data.length := by
          subst hr
          exact h.data_pos hret
        obtain ⟨out, hrun, hout, hframe⟩ := ih (hf.more h hr hret) (by omega)
        exact ⟨out, hturn fun fuel hfuel => (loop_more hlt hr hret).trans (hrun fuel hfuel), hout,
          fun j hj => (hframe j hj).trans (hkept j hj)⟩
      · by_cases hagain : r.ret = httpdSockErrTimeout ∧ timeouts + 1 ≤ recvBodyMaxTimeouts
        · obtain ⟨htimeout, hmore⟩ := hagain
          obtain ⟨out, hrun, hout, hframe⟩ := ih (hf.again h hr htimeout hmore) (by omega)
          exact ⟨out, hturn fun fuel hfuel =>
            (loop_again hlt hr htimeout hmore).trans (hrun fuel hfuel), hout,
            fun j hj => (hframe j hj).trans (hkept j hj)⟩
        · exact ⟨⟨-1, store buf total.toNat r.data, r.next, some "Failed to read body"⟩,
            hturn fun _ _ => loop_refused hlt hr hret hagain, .inr ⟨rfl, rfl⟩, hkept⟩
    · have hle : total.toNat ≤ contentLen.toNat := hf.inside
      exact ⟨⟨total, store buf total.toNat [0], conn, none⟩, hturn fun _ _ => loop_done hlt,
        .inl (hf.done hlt), fun j hj =>
          Lib.store_frame (.inr (Nat.le_trans (Nat.succ_le_succ hle) hj))⟩

/-! ## The function -/

/-- The text of the 400, if there is one. -/
def bodyError (contentLen bufsz : BitVec 32) : String :=
  if contentLen = 0 ∨ bufsz ≤ contentLen then "Body missing or too large" else "Failed to read body"

theorem recvBodyAt_spec (h : Delivers recv rest httpdSockErrTimeout) (conn : σ)
    (contentLen : BitVec 32) (buf : Memory) (bufsz : BitVec 32) :
    ∃ out, (∀ fuel ≥ contentLen.toNat + 4,
        recvBodyAt recv fuel conn contentLen buf bufsz = some out) ∧
      (contentLen < bufsz ∧ BodyWhole rest contentLen (rest conn) out ∨
        BodyRefused (bodyError contentLen bufsz) out) ∧
      ∀ j ≥ bufsz.toNat, out.buf j = buf j := by
  by_cases hbad : contentLen = 0 ∨ bufsz ≤ contentLen
  · exact ⟨⟨-1, buf, conn, some "Body missing or too large"⟩, fun _ _ => if_pos hbad,
      .inr ⟨rfl, congrArg some (if_pos hbad).symm⟩, fun _ _ => rfl⟩
  · have hroom : contentLen < bufsz := BitVec.not_le.mp fun hle => hbad (.inr hle)
    have hroom' : contentLen.toNat < bufsz.toNat := hroom
    have hfill : Filling rest contentLen (rest conn) conn buf 0 0 :=
      ⟨BitVec.le_def.mpr (Nat.zero_le _), Nat.zero_le _, rfl⟩
    have hmeasure : contentLen.toNat - (0 : BitVec 32).toNat + (recvBodyMaxTimeouts - 0) <
        contentLen.toNat + 4 := Nat.lt_succ_self _
    obtain ⟨out, hrun, hout, hframe⟩ := recvBodyLoop_spec h hfill hmeasure
    refine ⟨out, fun fuel hfuel => (if_neg hbad).trans (hrun fuel hfuel), ?_,
      fun j hj => hframe j (Nat.lt_of_lt_of_le hroom' hj)⟩
    rw [bodyError, if_neg hbad]
    exact hout.imp_left fun hwhole => ⟨hroom, hwhole⟩

/-- A refused caller sees a negative number. -/
theorem BodyRefused.negative {msg : String} {out : BodyResult σ} (h : BodyRefused msg out) :
    out.ret.toInt < 0 := by
  rw [h.ret]
  decide

/-- What a caller reads as a string is the string in the body. -/
theorem BodyWhole.string {out : BodyResult σ} (h : BodyWhole rest contentLen sent out)
    (hroom : contentLen < bufsz) :
    cString (load out.buf bufsz.toNat) = cString (load out.buf contentLen.toNat) := by
  have hroom : contentLen.toNat < bufsz.toNat := hroom
  have hsize : bufsz.toNat = contentLen.toNat + 1 + (bufsz.toNat - contentLen.toNat - 1) := by
    omega
  rw [hsize, load_add, load_succ, h.nul, List.append_assoc]
  exact cString_append_nul _ _

/-- **`recv_body` returns the whole body or refuses it**, for every length that is announced,
    every buffer and every connection; and it has told its caller which. -/
theorem recv_body_whole {σ : Type u} (httpdReqRecv : σ → Nat → ReadResult σ)
    (rest : σ → List UInt8) (h : Delivers httpdReqRecv rest httpdSockErrTimeout) (conn : σ)
    (contentLen : BitVec 32) (buf : Memory) (bufsz : BitVec 32) :
    ∃ out, (∀ fuel ≥ contentLen.toNat + 4,
        recvBodyAt httpdReqRecv fuel conn contentLen buf bufsz = some out) ∧
      (contentLen < bufsz ∧ BodyWhole rest contentLen (rest conn) out ∨
        BodyRefused (bodyError contentLen bufsz) out) ∧
      (0 ≤ out.ret.toInt → contentLen < bufsz ∧ BodyWhole rest contentLen (rest conn) out) ∧
      ∀ j ≥ bufsz.toNat, out.buf j = buf j := by
  obtain ⟨out, hrun, hout, hframe⟩ := recvBodyAt_spec h conn contentLen buf bufsz
  refine ⟨out, hrun, hout, fun hret => ?_, hframe⟩
  rcases hout with hwhole | hrefused
  · exact hwhole
  · exact absurd hrefused.negative (Int.not_lt.mpr hret)

end

/-! ## Connections that follow a script -/

/-- What is left of the body, and what the reads of it come to, until the connection is closed. -/
structure Scripted where
  rest : List UInt8
  script : List Recv

/-- How many bytes a read has at most. -/
def Recv.size : Recv → Nat
  | .bytes n => n + 1
  | _ => 0

def Scripted.recv (s : Scripted) (n : Nat) : ReadResult Scripted :=
  match s.script with
  | [] => ⟨0, [], s⟩
  | .bytes k :: script =>
      let data := s.rest.take (min (k + 1) n)
      ⟨data.length, data, ⟨s.rest.drop (min (k + 1) n), script⟩⟩
  | .timeout :: script => ⟨httpdSockErrTimeout, [], ⟨s.rest, script⟩⟩
  | .failed :: script => ⟨-1, [], ⟨s.rest, script⟩⟩

theorem Scripted.of_pos {s : Scripted} {n : Nat} (hret : 0 < (s.recv n).ret) :
    ∃ k script, s = ⟨s.rest, .bytes k :: script⟩ := by
  obtain ⟨rest, _ | ⟨k | _ | _, script⟩⟩ := s
  · exact absurd hret (Int.lt_irrefl 0)
  · exact ⟨k, script, rfl⟩
  · exact absurd hret (show ¬ (0 : Int) < httpdSockErrTimeout by decide)
  · exact absurd hret (show ¬ (0 : Int) < -1 by decide)

theorem scripted_delivers : Delivers Scripted.recv Scripted.rest httpdSockErrTimeout where
  inside := by
    rintro ⟨rest, _ | ⟨k | _ | _, script⟩⟩ n
    · exact Nat.zero_le n
    · exact Nat.le_trans (List.length_take_le _ _) (Nat.min_le_right _ _)
    · exact Nat.zero_le n
    · exact Nat.zero_le n
  count := by
    intro s n hret
    obtain ⟨k, script, heq⟩ := Scripted.of_pos hret
    rw [heq]
    rfl
  order := by
    intro s n hret
    obtain ⟨k, script, heq⟩ := Scripted.of_pos hret
    rw [heq]
    exact (List.take_append_drop _ _).symm
  keeps := by
    rintro ⟨rest, _ | ⟨k | _ | _, script⟩⟩ n hret
    · rfl
    · have hlength : ((rest.take (min (k + 1) n)).length : Int) = httpdSockErrTimeout := hret
      have hnegative : ¬ (0 : Int) ≤ httpdSockErrTimeout := by decide
      exact absurd (hlength ▸ Int.natCast_nonneg _) hnegative
    · rfl
    · rfl

/-- Two bytes, a gap, and the other three. -/
theorem recv_body_whole_split :
    ∃ out, (∀ fuel ≥ 9, recvBodyAt Scripted.recv fuel
        ⟨[123, 34, 97, 34, 125], [.bytes 1, .timeout, .bytes 9]⟩ 5 (fun _ => 0xff) 64 = some out) ∧
      out.ret = 5 ∧ load out.buf 5 ++ out.conn.rest = [123, 34, 97, 34, 125] ∧ out.buf 5 = 0 := by
  obtain ⟨out, hrun, -, hwhole, -⟩ := recv_body_whole Scripted.recv Scripted.rest
    scripted_delivers ⟨[123, 34, 97, 34, 125], [.bytes 1, .timeout, .bytes 9]⟩ 5 (fun _ => 0xff) 64
  have hret : some out.ret = some 5 :=
    (congrArg (Option.map BodyResult.ret) (hrun 9 (Nat.le_refl 9))).symm.trans (by decide)
  have hret := Option.some.inj hret
  obtain ⟨-, hbody⟩ := hwhole (hret ▸ by decide)
  exact ⟨out, hrun, hret, hbody.body, hbody.nul⟩

section

variable {content : List UInt8} {recvs : List Recv} {buf : Memory}
  {contentLen bufsz total : BitVec 32} {fuel timeouts : Nat}

/-- The loop of `recv_body` over memory answers where the loop over values does. -/
theorem recvBodyLoop_scripted (hlen : contentLen.toNat = content.length) (hle : total ≤ contentLen)
    (hfuel : recvs.length < fuel) :
    (recvBodyLoop Scripted.recv contentLen fuel ⟨content.drop total.toNat, recvs⟩ buf total
        timeouts).map (fun out => out.answer.isNone) =
      some (recvLoop content total.toNat timeouts recvs).isSome := by
  induction recvs generalizing fuel buf total timeouts with
  | nil =>
    obtain ⟨fuel, rfl⟩ := Nat.exists_eq_succ_of_ne_zero (Nat.ne_zero_of_lt hfuel)
    unfold recvLoop
    by_cases hlt : total < contentLen
    · have hmissing : total.toNat < contentLen.toNat := hlt
      have hclosed : readMissing Scripted.recv contentLen ⟨content.drop total.toNat, []⟩ total =
          ⟨0, [], ⟨content.drop total.toNat, []⟩⟩ := rfl
      have hzero : (0 : Int) ≠ httpdSockErrTimeout := by decide
      rw [loop_refused hlt hclosed (Int.lt_irrefl 0) fun hagain => hzero hagain.1,
        if_neg (by omega)]
      rfl
    · have hmissing : ¬ total.toNat < contentLen.toNat := hlt
      rw [loop_done hlt, if_pos (by omega)]
      rfl
  | cons r recvs ih =>
    obtain ⟨fuel, rfl⟩ := Nat.exists_eq_succ_of_ne_zero (Nat.ne_zero_of_lt hfuel)
    have hleft : recvs.length < fuel := Nat.lt_of_succ_lt_succ hfuel
    unfold recvLoop
    by_cases hlt : total < contentLen
    · have hmissing : total.toNat < contentLen.toNat := hlt
      rw [if_neg (by omega)]
      obtain ⟨out, hread⟩ : ∃ out, readMissing Scripted.recv contentLen
          ⟨content.drop total.toNat, r :: recvs⟩ total = out := ⟨_, rfl⟩
      cases r with
      | bytes k =>
        have hasked : (contentLen - total).toNat = content.length - total.toNat := by
          rw [BitVec.toNat_sub_of_le hle, hlen]
        have hdata : out.data.length = min (k + 1) (content.length - total.toNat) := by
          rw [← hread, ← hasked]
          show ((content.drop total.toNat).take _).length = _
          rw [List.length_take, List.length_drop, hasked]
          omega
        have hret : 0 < out.ret := by
          have hcount : out.ret = out.data.length := hread ▸ rfl
          rw [hcount, hdata]
          omega
        have htotal := toNat_total scripted_delivers hle hread hret
        have hnext : out.next = ⟨content.drop (total + BitVec.ofInt 32 out.ret).toNat, recvs⟩ := by
          rw [htotal, hdata, ← hasked, ← List.drop_drop, ← hread]
          rfl
        have hle' : total + BitVec.ofInt 32 out.ret ≤ contentLen := by
          rw [BitVec.le_def, htotal]
          exact readMissing_length scripted_delivers hle hread
        rw [loop_more hlt hread hret, hnext, ih hle' hleft, htotal, hdata]
      | timeout =>
        obtain ⟨hret, hnext⟩ : out.ret = httpdSockErrTimeout ∧
            out.next = ⟨content.drop total.toNat, recvs⟩ := hread ▸ ⟨rfl, rfl⟩
        dsimp only
        by_cases hmore : timeouts + 1 ≤ recvBodyMaxTimeouts
        · rw [loop_again hlt hread hret hmore, hnext, if_pos hmore]
          exact ih hle hleft
        · have hnone : ¬ 0 < out.ret := by
            rw [hret]
            decide
          rw [loop_refused hlt hread hnone fun hagain => hmore hagain.2, if_neg hmore]
          rfl
      | failed =>
        have hret : out.ret = -1 := hread ▸ rfl
        have hfail : (-1 : Int) ≠ httpdSockErrTimeout := by decide
        have hnone : ¬ 0 < out.ret := by
          rw [hret]
          decide
        rw [loop_refused hlt hread hnone fun hagain => hfail (hret.symm.trans hagain.1)]
        rfl
    · have hmissing : ¬ total.toNat < contentLen.toNat := hlt
      rw [loop_done hlt, if_pos (by omega)]
      rfl

/-- **`recv_body` over memory is `recv_body` over values**: what its callers, whose buffers have
    a few hundred bytes, find in theirs is the string that the body begins with. -/
theorem recvBodyAt_scripted (content : List UInt8) (recvs : List Recv) (buf : Memory)
    (bufsz : BitVec 32) (hlen : content.length < 2 ^ 32) (hsize : bufsz.toNat ≤ 2 ^ 31) :
    ∃ out, (∀ fuel ≥ content.length + 4, recvBodyAt Scripted.recv fuel ⟨content, recvs⟩
        (BitVec.ofNat 32 content.length) buf bufsz = some out) ∧
      (if out.ret.toInt < 0 then none else some (cString (load out.buf bufsz.toNat))) =
        (recvBody bufsz.toNat content recvs).map cString := by
  obtain ⟨contentLen, hlength⟩ : ∃ n, n = BitVec.ofNat 32 content.length := ⟨_, rfl⟩
  have hnat : contentLen.toNat = content.length := by
    rw [hlength, BitVec.toNat_ofNat, Nat.mod_eq_of_lt hlen]
  rw [← hlength]
  obtain ⟨out, hrun, hout, -⟩ :=
    recvBodyAt_spec scripted_delivers ⟨content, recvs⟩ contentLen buf bufsz
  rw [hnat] at hrun
  refine ⟨out, hrun, ?_⟩
  have hbad_iff : contentLen = 0 ∨ bufsz ≤ contentLen ↔
      content.length = 0 ∨ bufsz.toNat ≤ content.length := by
    rw [BitVec.le_def, ← hnat]
    exact or_congr_left ⟨fun h => congrArg BitVec.toNat h, fun h => BitVec.eq_of_toNat_eq h⟩
  by_cases hbad : contentLen = 0 ∨ bufsz ≤ contentLen
  · have hout := (hrun (content.length + 4) (Nat.le_refl _)).symm.trans (if_pos hbad)
    rw [Option.some.inj hout, recvBody, if_pos (hbad_iff.mp hbad)]
    rfl
  · -- turns enough for either reason to end: nothing is missing, or the script is at its end
    obtain ⟨fuel, hturns, hscript⟩ : ∃ fuel, content.length + 4 ≤ fuel ∧ recvs.length < fuel :=
      ⟨_, Nat.le_max_left _ _, Nat.lt_of_lt_of_le (Nat.lt_succ_self _) (Nat.le_max_right _ _)⟩
    have hstart : (0 : BitVec 32) ≤ contentLen := BitVec.le_def.mpr (Nat.zero_le _)
    have hanswers : (recvBodyLoop Scripted.recv contentLen fuel ⟨content, recvs⟩ buf 0 0).map
        (fun out => out.answer.isNone) = some (recvLoop content 0 0 recvs).isSome :=
      recvBodyLoop_scripted hnat hstart hscript
    have hloop := (if_neg hbad).symm.trans (hrun fuel hturns)
    rw [hloop, Option.map_some] at hanswers
    have hsome : out.answer.isNone = (recvLoop content 0 0 recvs).isSome :=
      Option.some.inj hanswers
    rw [recvBody, if_neg (mt hbad_iff.mpr hbad)]
    rcases hout with ⟨hroom, hwhole⟩ | hrefused
    · rw [hwhole.answer] at hsome
      obtain ⟨got, hgot⟩ := Option.isSome_iff_exists.mp hsome.symm
      have hroom' : contentLen.toNat < bufsz.toNat := hroom
      have hret : ¬ out.ret.toInt < 0 := by
        rw [hwhole.ret, BitVec.toInt_eq_toNat_of_lt (by omega)]
        omega
      have hload : load out.buf contentLen.toNat = content :=
        List.IsPrefix.eq_of_length ⟨_, hwhole.body⟩ (by simp [load, hnat])
      rw [if_neg hret, hwhole.string hroom, hload, hgot, recvLoop_some hgot]
      rfl
    · rw [hrefused.answer] at hsome
      have hnone := Option.isNone_iff_eq_none.mp (Option.isSome_eq_false_iff.mp hsome.symm)
      rw [if_pos hrefused.negative, hnone]
      rfl

/-! ### What gets through -/

theorem recvLoop_arrives {total : Nat} (hfailed : .failed ∉ recvs)
    (hpatience : timeouts + recvs.count .timeout ≤ recvBodyMaxTimeouts)
    (henough : content.length ≤ total + (recvs.map Recv.size).sum) :
    (recvLoop content total timeouts recvs).isSome = true := by
  induction recvs generalizing total timeouts with
  | nil =>
    unfold recvLoop
    rw [if_pos (by simpa using henough)]
    rfl
  | cons r recvs ih =>
    have hrest : .failed ∉ recvs := fun hmem => hfailed (List.mem_cons_of_mem _ hmem)
    rw [List.map_cons, List.sum_cons] at henough
    unfold recvLoop
    split
    · rfl
    · rename_i hmissing
      cases r with
      | bytes n =>
        have hnext : timeouts + recvs.count .timeout ≤ recvBodyMaxTimeouts := by
          simpa using hpatience
        have hsize : (Recv.bytes n).size = n + 1 := rfl
        exact ih hrest hnext (by omega)
      | timeout =>
        rw [List.count_cons_self] at hpatience
        have hsize : Recv.timeout.size = 0 := rfl
        dsimp only
        rw [if_pos (by omega)]
        exact ih hrest (by omega) (by omega)
      | failed => exact absurd List.mem_cons_self hfailed

/-- A body that fits arrives, however it is split, with three timeouts at most. -/
theorem recvBody_arrives {bufsz : Nat} (hne : content ≠ []) (hroom : content.length < bufsz)
    (hfailed : .failed ∉ recvs) (hpatience : recvs.count .timeout ≤ recvBodyMaxTimeouts)
    (henough : content.length ≤ (recvs.map Recv.size).sum) :
    recvBody bufsz content recvs = some content := by
  have hgood : ¬ (content.length = 0 ∨ bufsz ≤ content.length) := fun hbad =>
    hbad.elim (fun hzero => hne (List.length_eq_zero_iff.mp hzero)) (Nat.not_le.mpr hroom)
  have hsome : (recvLoop content 0 0 recvs).isSome = true :=
    recvLoop_arrives hfailed (by rwa [Nat.zero_add]) (by rwa [Nat.zero_add])
  obtain ⟨got, hgot⟩ := Option.isSome_iff_exists.mp hsome
  rw [recvBody, if_neg hgood, hgot, recvLoop_some hgot]

end

end Web
end Wt32Router
