import Wt32Router.Web.Csrf
import Wt32Router.Web.RecvBody

/-!
# A firmware upload

`ota_post_handler` and `ota_drain_body` of `main/web_server.c`. The body of the request is the new
image; it is written as it arrives into the partition that does not run, and is booted from then on
if all of it came and it passes for an image.

> **`ota_all_or_nothing`**: an upload ends in one of a few ways (`OtaOutcome`). The boot partition
> is changed, and the device restarted, only behind the whole body written in order and found
> good; the partition that was begun is closed once, given up or finished; and a request that is
> refused does not come near it.

The connection is a parameter that `Delivers` the body's bytes in order, and so is what `esp_ota`
answers. Of that it is known that no image is begun that does not fit its partition, which has less
than 2^31 bytes: the length that the handler counts down is an `int`.
-/

namespace Wt32Router
namespace Web

open Lib (Delivers ReadResult ascii)

universe u

/-- `sizeof(ota_buf)`. -/
def otaBufSize : Nat := 4096

/-- What the handler asks of the flash and of the system, in order. -/
inductive OtaCall where
  | otaBegin (imageSize : BitVec 32)
  | otaWrite (data : List UInt8)
  | otaAbort
  | otaEnd
  | setBootPartition
  | noteIntent
  | restart
deriving DecidableEq, Repr

/-- How the calls of `esp_ota` turn out: whether there is a partition, whether an image of a size
    can be begun, whether so many bytes in a write succeeds, the name of `esp_ota_end`'s error,
    if it has one, and whether the boot partition can be set. -/
structure OtaFlash where
  partition : Bool
  begins : BitVec 32 → Bool
  writes : Nat → Bool
  ends : Option (List UInt8)
  boots : Bool

inductive OtaAnswer where
  | authError
  | setupRequired
  | csrfError (why : Csrf)
  | err (status : Nat) (msg : String)
  | invalidImage (name : List UInt8)
  | ok
deriving DecidableEq, Repr

/-- The calls that were made, the answer, the connection behind it, and whether the handler
    returns `ESP_OK`: it is closed otherwise. -/
structure OtaResult (σ : Type u) where
  calls : List OtaCall
  answer : OtaAnswer
  conn : σ
  keeps : Bool

/-- The headers the handler looks at, and the length of the body. -/
structure OtaRequest where
  authorization : Option (List UInt8)
  contentType : Option (List UInt8)
  origin : Option (List UInt8)
  host : Option (List UInt8)
  contentLen : BitVec 32
deriving DecidableEq, Repr

/-- `to_read`. -/
def otaToRead (remaining : Int) : Nat :=
  if remaining < otaBufSize then remaining.toNat else otaBufSize

/-- The loop of `ota_drain_body`, for so many turns. -/
def otaDrainLoop {σ : Type u} (httpdReqRecv : σ → Nat → ReadResult σ) :
    Nat → σ → Int → Option σ
  | 0, _, _ => none
  | fuel + 1, conn, remaining =>
      if 0 < remaining then
        let received := httpdReqRecv conn (otaToRead remaining)
        if received.ret ≤ 0 then some received.next
        else otaDrainLoop httpdReqRecv fuel received.next (remaining - received.ret)
      else some conn

def otaDrainBody {σ : Type u} (httpdReqRecv : σ → Nat → ReadResult σ) (fuel : Nat) (conn : σ)
    (contentLen : BitVec 32) : Option σ :=
  otaDrainLoop httpdReqRecv fuel conn contentLen.toInt

/-- What the loop over the body makes of it: its calls, the answer if it has failed, and the
    connection. -/
structure OtaWritten (σ : Type u) where
  calls : List OtaCall
  failed : Option OtaAnswer
  conn : σ

/-- The loop of `ota_post_handler`, with so much written already. -/
def otaWriteLoop {σ : Type u} (httpdReqRecv : σ → Nat → ReadResult σ) (writes : Nat → Bool) :
    Nat → σ → Int → Nat → Option (OtaWritten σ)
  | 0, _, _, _ => none
  | fuel + 1, conn, remaining, written =>
      if 0 < remaining then
        let received := httpdReqRecv conn (otaToRead remaining)
        if received.ret ≤ 0 then
          some ⟨[.otaAbort], some (.err 400 "Failed to read body"), received.next⟩
        else
          let data := received.data.take received.ret.toNat
          if writes written then
            (otaWriteLoop httpdReqRecv writes fuel received.next (remaining - received.ret)
                (written + data.length)).map
              fun out => { out with calls := .otaWrite data :: out.calls }
          else
            some ⟨[.otaWrite data, .otaAbort], some (.err 500 "Flash write failed"),
              received.next⟩
      else some ⟨[], none, conn⟩

/-- The text of the answer where `esp_ota_end` has found the image bad. -/
def invalidImageText (name : List UInt8) : List UInt8 :=
  ascii "\x7b\"ok\":false,\"error\":\"Image validation failed: " ++ name ++ ascii "\"\x7d"

/-- The handler behind the loop, with its calls so far. -/
def otaFinish {σ : Type u} (flash : OtaFlash) (calls : List OtaCall) (conn : σ) : OtaResult σ :=
  match flash.ends with
  | some name =>
      if (invalidImageText name).length < 128 then
        ⟨calls ++ [.otaEnd], .invalidImage name, conn, true⟩
      else ⟨calls ++ [.otaEnd], .err 500 "Response buffer overflow", conn, false⟩
  | none =>
      if flash.boots then
        ⟨calls ++ [.otaEnd, .setBootPartition, .noteIntent, .restart], .ok, conn, true⟩
      else
        ⟨calls ++ [.otaEnd, .setBootPartition], .err 500 "Failed to set boot partition", conn,
          true⟩

/-- What the handler says before it looks at the body, if it refuses it. -/
def OtaRequest.refusal (auth : AuthCfg) (r : OtaRequest) : Option OtaAnswer :=
  if !checkAdminAuth auth r.authorization then some .authError
  else if auth.password = authCfgDefaultPassword then some .setupRequired
  else
    let checked := csrfCheck (ascii "application/octet-stream") r.contentType r.origin r.host
    if checked = .pass then none else some (.csrfError checked)

/-- `ota_post_handler`, with its loops for so many turns. -/
def otaPost {σ : Type u} (httpdReqRecv : σ → Nat → ReadResult σ) (flash : OtaFlash)
    (auth : AuthCfg) (fuel : Nat) (conn : σ) (r : OtaRequest) : Option (OtaResult σ) :=
  match r.refusal auth with
  | some answer =>
      (otaDrainBody httpdReqRecv fuel conn r.contentLen).map fun conn => ⟨[], answer, conn, true⟩
  | none =>
      if r.contentLen = 0 then some ⟨[], .err 400 "Body missing", conn, false⟩
      else if !flash.partition then
        some ⟨[], .err 500 "No OTA partition available", conn, false⟩
      else if !flash.begins r.contentLen then
        some ⟨[.otaBegin r.contentLen], .err 400 "Image too large or OTA busy", conn, false⟩
      else
        (otaWriteLoop httpdReqRecv flash.writes fuel conn r.contentLen.toInt 0).map fun out =>
          match out.failed with
          | some answer => ⟨.otaBegin r.contentLen :: out.calls, answer, out.conn, false⟩
          | none => otaFinish flash (.otaBegin r.contentLen :: out.calls) out.conn

/-- The body: all that was announced has been written, and it is what was to come first. -/
structure WholeImage {σ : Type u} (rest : σ → List UInt8) (sent : List UInt8)
    (contentLen : BitVec 32) (chunks : List (List UInt8)) (conn : σ) : Prop where
  length : chunks.flatten.length = contentLen.toNat
  order : chunks.flatten ++ rest conn = sent

/-- **The ways an upload ends.** -/
inductive OtaOutcome {σ : Type u} (rest : σ → List UInt8) (sent : List UInt8) (flash : OtaFlash)
    (contentLen : BitVec 32) : OtaResult σ → Prop
  /-- the flash has not been touched -/
  | untouched (answer : OtaAnswer) (conn : σ) (keeps : Bool) (h : answer ≠ .ok) :
      OtaOutcome rest sent flash contentLen ⟨[], answer, conn, keeps⟩
  | unbegun (status : Nat) (msg : String) (conn : σ) (h : flash.begins contentLen = false) :
      OtaOutcome rest sent flash contentLen
        ⟨[.otaBegin contentLen], .err status msg, conn, false⟩
  /-- some of the body was written, and given up -/
  | aborted (chunks : List (List UInt8)) (status : Nat) (msg : String) (conn : σ) :
      OtaOutcome rest sent flash contentLen
        ⟨.otaBegin contentLen :: (chunks.map .otaWrite ++ [.otaAbort]), .err status msg, conn,
          false⟩
  /-- all of it was written, and is no image -/
  | invalid (chunks : List (List UInt8)) (name : List UInt8) (answer : OtaAnswer) (conn : σ)
      (keeps : Bool) (hwhole : WholeImage rest sent contentLen chunks conn)
      (h : flash.ends = some name) (hanswer : answer ≠ .ok) :
      OtaOutcome rest sent flash contentLen
        ⟨.otaBegin contentLen :: (chunks.map .otaWrite ++ [.otaEnd]), answer, conn, keeps⟩
  | unbooted (chunks : List (List UInt8)) (status : Nat) (msg : String) (conn : σ)
      (hwhole : WholeImage rest sent contentLen chunks conn) (h : flash.ends = none)
      (hboots : flash.boots = false) :
      OtaOutcome rest sent flash contentLen
        ⟨.otaBegin contentLen :: (chunks.map .otaWrite ++ [.otaEnd, .setBootPartition]),
          .err status msg, conn, true⟩
  /-- all of it was written, found good, and is booted -/
  | booted (chunks : List (List UInt8)) (conn : σ)
      (hwhole : WholeImage rest sent contentLen chunks conn) (h : flash.ends = none)
      (hboots : flash.boots = true) :
      OtaOutcome rest sent flash contentLen
        ⟨.otaBegin contentLen ::
            (chunks.map .otaWrite ++ [.otaEnd, .setBootPartition, .noteIntent, .restart]),
          .ok, conn, true⟩

section

variable {σ : Type u} {recv : σ → Nat → ReadResult σ} {rest : σ → List UInt8} {idle : Int}
  {conn : σ} {remaining : Int} {bound : Nat} {flash : OtaFlash}

/-! ## The loops -/

/-- A read takes something, and no more than there is to come. -/
theorem otaRead_bounds (h : Delivers recv rest idle) (hrem : 0 < remaining)
    (hret : ¬(recv conn (otaToRead remaining)).ret ≤ 0) :
    0 < (recv conn (otaToRead remaining)).ret ∧
      (recv conn (otaToRead remaining)).ret ≤ remaining := by
  have hpos : 0 < (recv conn (otaToRead remaining)).ret := Int.not_le.mp hret
  have hcount := h.count conn (otaToRead remaining) hpos
  have hinside := h.inside conn (otaToRead remaining)
  have hsize : (otaToRead remaining : Int) ≤ remaining := by
    unfold otaToRead otaBufSize
    split <;> omega
  omega

/-- One turn of either loop leaves less to come. -/
theorem otaRead_less (h : Delivers recv rest idle) (hrem : 0 < remaining)
    (hret : ¬(recv conn (otaToRead remaining)).ret ≤ 0) (hbound : remaining.toNat < bound + 1) :
    (remaining - (recv conn (otaToRead remaining)).ret).toNat < bound := by
  obtain ⟨hpos, hle⟩ := otaRead_bounds h hrem hret
  omega

/-- The rest of a refused body is read, or as much of it as comes. -/
theorem otaDrainLoop_spec (h : Delivers recv rest idle) (conn : σ)
    (hbound : remaining.toNat < bound) :
    ∃ after, ∀ fuel ≥ bound, otaDrainLoop recv fuel conn remaining = some after := by
  induction bound generalizing conn remaining with
  | zero => exact absurd hbound (Nat.not_lt_zero _)
  | succ bound ih =>
    by_cases hrem : 0 < remaining
    · by_cases hret : (recv conn (otaToRead remaining)).ret ≤ 0
      · refine ⟨(recv conn (otaToRead remaining)).next, fun fuel hfuel => ?_⟩
        obtain ⟨fuel, rfl⟩ := Nat.exists_eq_add_of_le' hfuel
        show otaDrainLoop recv (fuel + bound + 1) conn remaining = _
        rw [otaDrainLoop, if_pos hrem]
        exact if_pos hret
      · obtain ⟨after, hafter⟩ := ih _ (otaRead_less h hrem hret hbound)
        refine ⟨after, fun fuel hfuel => ?_⟩
        obtain ⟨fuel, rfl⟩ := Nat.exists_eq_add_of_le' hfuel
        show otaDrainLoop recv (fuel + bound + 1) conn remaining = _
        rw [otaDrainLoop, if_pos hrem]
        exact (if_neg hret).trans (hafter (fuel + bound) (Nat.le_add_left _ _))
    · refine ⟨conn, fun fuel hfuel => ?_⟩
      obtain ⟨fuel, rfl⟩ := Nat.exists_eq_add_of_le' hfuel
      show otaDrainLoop recv (fuel + bound + 1) conn remaining = _
      rw [otaDrainLoop, if_neg hrem]

/-- What the loop has called: writes, and an abort if it failed; and if it did not, it has written
    all. -/
structure LoopWritten (rest : σ → List UInt8) (sent : List UInt8) (remaining : Int)
    (out : OtaWritten σ) (chunks : List (List UInt8)) : Prop where
  calls : out.calls = chunks.map .otaWrite ++ if out.failed.isSome then [.otaAbort] else []
  failed : ∀ answer ∈ out.failed, ∃ status msg, answer = .err status msg
  length : out.failed = none → (chunks.flatten.length : Int) = max remaining 0
  order : out.failed = none → chunks.flatten ++ rest out.conn = sent

/-- The loop stopped where it is. -/
theorem loopWritten_stop {sent : List UInt8} (chunks : List (List UInt8)) (conn : σ)
    (status : Nat) (msg : String) : LoopWritten rest sent remaining
      ⟨chunks.map .otaWrite ++ [.otaAbort], some (.err status msg), conn⟩ chunks := by
  refine ⟨rfl, fun answer' hans => ?_, fun hnone => ?_, fun hnone => ?_⟩
  · exact ⟨status, msg, (Option.some.inj hans).symm⟩
  · exact absurd hnone (by simp)
  · exact absurd hnone (by simp)

/-- A chunk in front. -/
theorem LoopWritten.cons {out : OtaWritten σ} {data sent sent' : List UInt8} {left : Int}
    {chunks : List (List UInt8)} (h : LoopWritten rest sent left out chunks)
    (hsent : sent' = data ++ sent) (hleft : 0 ≤ left) (hrem : remaining = data.length + left) :
    LoopWritten rest sent' remaining { out with calls := .otaWrite data :: out.calls }
      (data :: chunks) := by
  refine ⟨?_, h.failed, fun hnone => ?_, fun hnone => ?_⟩
  · show OtaCall.otaWrite data :: out.calls = _
    rw [h.calls]
    rfl
  · have hlen := h.length hnone
    rw [List.flatten_cons, List.length_append]
    omega
  · rw [List.flatten_cons, List.append_assoc, h.order hnone, hsent]

theorem otaWriteLoop_spec (h : Delivers recv rest idle) (writes : Nat → Bool) (conn : σ)
    (written : Nat) (hbound : remaining.toNat < bound) :
    ∃ out chunks, (∀ fuel ≥ bound, otaWriteLoop recv writes fuel conn remaining written =
        some out) ∧ LoopWritten rest (rest conn) remaining out chunks := by
  induction bound generalizing conn remaining written with
  | zero => exact absurd hbound (Nat.not_lt_zero _)
  | succ bound ih =>
    by_cases hrem : 0 < remaining
    · -- the turn by itself
      have hturn : ∀ fuel ≥ bound + 1, ∃ more ≥ bound, fuel = more + 1 := fun fuel hfuel =>
        ⟨fuel - 1, by omega, by omega⟩
      by_cases hret : (recv conn (otaToRead remaining)).ret ≤ 0
      · refine ⟨_, _, fun fuel hfuel => ?_,
          loopWritten_stop [] (recv conn (otaToRead remaining)).next 400 "Failed to read body"⟩
        obtain ⟨more, -, rfl⟩ := hturn fuel hfuel
        rw [otaWriteLoop, if_pos hrem]
        exact if_pos hret
      · obtain ⟨hpos, hle⟩ := otaRead_bounds h hrem hret
        have hcount := h.count conn (otaToRead remaining) hpos
        have horder := h.order conn (otaToRead remaining) hpos
        have hdata : (recv conn (otaToRead remaining)).data.take
            (recv conn (otaToRead remaining)).ret.toNat =
              (recv conn (otaToRead remaining)).data := by
          rw [hcount]
          exact List.take_length
        by_cases hwrite : writes written = true
        · obtain ⟨out, chunks, hrun, hout⟩ := ih (recv conn (otaToRead remaining)).next
            (written + (recv conn (otaToRead remaining)).data.length)
            (otaRead_less h hrem hret hbound)
          refine ⟨_, _, fun fuel hfuel => ?_, hout.cons horder (by omega) (by omega)⟩
          obtain ⟨more, hmore, rfl⟩ := hturn fuel hfuel
          rw [otaWriteLoop, if_pos hrem]
          dsimp only
          rw [if_neg hret, hdata, if_pos hwrite, hrun more hmore]
          rfl
        · refine ⟨_, _, fun fuel hfuel => ?_,
            loopWritten_stop [(recv conn (otaToRead remaining)).data]
              (recv conn (otaToRead remaining)).next 500 "Flash write failed"⟩
          obtain ⟨more, -, rfl⟩ := hturn fuel hfuel
          rw [otaWriteLoop, if_pos hrem]
          dsimp only
          rw [if_neg hret, hdata, if_neg hwrite]
          rfl
    · refine ⟨⟨[], none, conn⟩, [], fun fuel hfuel => ?_, rfl, fun answer hans => ?_,
        fun _ => ?_, fun _ => rfl⟩
      · obtain ⟨fuel, rfl⟩ := Nat.exists_eq_add_of_le' hfuel
        show otaWriteLoop recv writes (fuel + bound + 1) conn remaining written = _
        rw [otaWriteLoop, if_neg hrem]
      · exact absurd hans (by simp)
      · show (0 : Int) = max remaining 0
        omega

/-! ## The handler -/

/-- What follows the loop, where it has written all. -/
theorem otaFinish_outcome {chunks : List (List UInt8)} {sent : List UInt8}
    {contentLen : BitVec 32} (hwhole : WholeImage rest sent contentLen chunks conn) :
    OtaOutcome rest sent flash contentLen
      (otaFinish flash (.otaBegin contentLen :: chunks.map .otaWrite) conn) := by
  unfold otaFinish
  cases hends : flash.ends with
  | some name =>
    dsimp only
    split
    · exact .invalid chunks name _ conn true hwhole hends (by simp)
    · exact .invalid chunks name _ conn false hwhole hends (by simp)
  | none =>
    dsimp only
    split
    · rename_i hboots
      exact .booted chunks conn hwhole hends hboots
    · rename_i hboots
      exact .unbooted chunks _ _ conn hwhole hends (Bool.eq_false_of_not_eq_true hboots)

theorem refusal_ne_ok {auth : AuthCfg} {r : OtaRequest} {answer : OtaAnswer}
    (h : r.refusal auth = some answer) : answer ≠ .ok := by
  unfold OtaRequest.refusal at h
  rintro rfl
  split at h
  · exact absurd h (by simp)
  · split at h
    · exact absurd h (by simp)
    · dsimp only at h
      split at h <;> exact absurd h (by simp)

/-- **An upload takes effect as a whole or not at all**, for every connection, every length that is
    announced and however the flash answers; and it always ends. -/
theorem ota_all_or_nothing {σ : Type u} (httpdReqRecv : σ → Nat → ReadResult σ)
    (rest : σ → List UInt8) (idle : Int) (h : Delivers httpdReqRecv rest idle) (flash : OtaFlash)
    (hfits : ∀ size, flash.begins size = true → size.toNat < 2147483648) (auth : AuthCfg)
    (conn : σ) (r : OtaRequest) :
    ∃ out, (∀ fuel > r.contentLen.toNat, otaPost httpdReqRecv flash auth fuel conn r = some out) ∧
      OtaOutcome rest (rest conn) flash r.contentLen out ∧
      (out.calls ≠ [] → r.refusal auth = none) := by
  have hle : r.contentLen.toInt.toNat ≤ r.contentLen.toNat := by
    rw [BitVec.toInt_eq_toNat_cond]
    split <;> omega
  cases hrefusal : r.refusal auth with
  | some answer =>
    obtain ⟨after, hafter⟩ := otaDrainLoop_spec h conn (Nat.lt_succ_of_le hle)
    refine ⟨⟨[], answer, after, true⟩, fun fuel hfuel => ?_,
      .untouched answer after true (refusal_ne_ok hrefusal), fun hcalls => absurd rfl hcalls⟩
    unfold otaPost
    rw [hrefusal]
    exact congrArg (Option.map _) (hafter fuel hfuel)
  | none =>
    -- the tests before the loop do not look at the number of turns
    have hpost : ∀ fuel, otaPost httpdReqRecv flash auth fuel conn r =
        if r.contentLen = 0 then some ⟨[], .err 400 "Body missing", conn, false⟩
        else if !flash.partition then
          some ⟨[], .err 500 "No OTA partition available", conn, false⟩
        else if !flash.begins r.contentLen then
          some ⟨[.otaBegin r.contentLen], .err 400 "Image too large or OTA busy", conn, false⟩
        else (otaWriteLoop httpdReqRecv flash.writes fuel conn r.contentLen.toInt 0).map fun out =>
          match out.failed with
          | some answer => ⟨.otaBegin r.contentLen :: out.calls, answer, out.conn, false⟩
          | none => otaFinish flash (.otaBegin r.contentLen :: out.calls) out.conn := by
      intro fuel
      unfold otaPost
      rw [hrefusal]
    by_cases hzero : r.contentLen = 0
    · exact ⟨_, fun fuel _ => (hpost fuel).trans (if_pos hzero), .untouched _ conn false (by simp),
        fun _ => rfl⟩
    cases hpartition : flash.partition with
    | false =>
      refine ⟨_, fun fuel _ => (hpost fuel).trans ((if_neg hzero).trans (if_pos ?_)),
        .untouched _ conn false (by simp), fun _ => rfl⟩
      rw [hpartition]
      rfl
    | true =>
    have hthere : ¬(!flash.partition) = true := by simp [hpartition]
    cases hbegins : flash.begins r.contentLen with
    | false =>
      refine ⟨_, fun fuel _ => (hpost fuel).trans ((if_neg hzero).trans ((if_neg hthere).trans
        (if_pos ?_))), .unbegun _ _ conn hbegins, fun _ => rfl⟩
      rw [hbegins]
      rfl
    | true =>
    have hbegun : ¬(!flash.begins r.contentLen) = true := by simp [hbegins]
    have hint : r.contentLen.toInt = r.contentLen.toNat := by
      have := hfits _ hbegins
      rw [BitVec.toInt_eq_toNat_cond, if_pos (by omega)]
    obtain ⟨out, chunks, hrun, hout⟩ := otaWriteLoop_spec h flash.writes conn 0
      (Nat.lt_succ_of_le hle)
    refine ⟨_, fun fuel hfuel => (hpost fuel).trans ((if_neg hzero).trans ((if_neg hthere).trans
      ((if_neg hbegun).trans (congrArg (Option.map _) (hrun fuel hfuel))))), ?_, fun _ => rfl⟩
    cases hfailed : out.failed with
    | some answer =>
      obtain ⟨status, msg, rfl⟩ := hout.failed answer hfailed
      have hcalls := hout.calls
      rw [hfailed, Option.isSome_some, if_pos rfl] at hcalls
      dsimp only
      rw [hfailed, hcalls]
      exact .aborted chunks status msg out.conn
    | none =>
      have hcalls := hout.calls
      rw [hfailed, Option.isSome_none, if_neg Bool.false_ne_true, List.append_nil] at hcalls
      dsimp only
      rw [hfailed, hcalls]
      have hlen := hout.length hfailed
      have hwhole : WholeImage rest (rest conn) r.contentLen chunks out.conn :=
        ⟨by omega, hout.order hfailed⟩
      exact otaFinish_outcome hwhole

/-- An image of six bytes, which comes in two segments. -/
def smallImage : OtaRequest :=
  ⟨some (basicHeader (ascii "ZmFybTp0cmFjdG9y")), some (ascii "application/octet-stream"), none,
    none, 6⟩

theorem ota_all_or_nothing_small :
    let flash : OtaFlash := ⟨true, fun size => size.toNat ≤ 0x1e0000, fun _ => true, none, true⟩
    let conn : Scripted := ⟨[0xe9, 1, 2, 3, 4, 5], [.bytes 3, .bytes 9]⟩
    ∃ out, (∀ fuel > 6, otaPost Scripted.recv flash someAuth fuel conn smallImage = some out) ∧
      OtaOutcome Scripted.rest [0xe9, 1, 2, 3, 4, 5] flash 6 out ∧
      out.calls = [.otaBegin 6, .otaWrite [0xe9, 1, 2, 3], .otaWrite [4, 5], .otaEnd,
        .setBootPartition, .noteIntent, .restart] := by
  intro flash conn
  have hfits : ∀ size, flash.begins size = true → size.toNat < 2147483648 := fun size hsize =>
    Nat.lt_of_le_of_lt (of_decide_eq_true hsize) (by decide)
  obtain ⟨out, hrun, hout, -⟩ := ota_all_or_nothing Scripted.recv Scripted.rest
    httpdSockErrTimeout scripted_delivers flash hfits someAuth conn smallImage
  have hcalls : some out.calls = some [.otaBegin 6, .otaWrite [0xe9, 1, 2, 3], .otaWrite [4, 5],
      .otaEnd, .setBootPartition, .noteIntent, .restart] :=
    (congrArg (Option.map OtaResult.calls) (hrun 7 (by decide))).symm.trans (by decide +kernel)
  exact ⟨out, hrun, hout, Option.some.inj hcalls⟩

end

end Web
end Wt32Router
