import Mathlib.Data.List.DropRight
import Wt32Router.Web.Auth
import Wt32Router.Web.Settings

/-!
# Requests that another site has a browser make

`csrf_check` and `strip_default_port` of `main/web_server.c`. A browser sends the credentials it has
for this server with any request, also with one that a page of another site made; the check lets
no such request through to a handler that changes something.

> **`csrfCheck_iff`**: a request with an `Origin` passes exactly if it is of the one media type that
> is asked for and its origin is the one it is sent to, with the default port spelled out or not
> on either side.

> **`strangers_change_nothing`**: over any requests to the settings, each without the credentials,
> or from another site, or barred by the default password, all that is saved stays.

A browser sends one of three media types without asking first (`simpleTypes`), or none; those are
refused whatever the origin (`simple_refused`).
-/

namespace Wt32Router
namespace Web

open Lib (ascii decimal digit_of_mem_decimal digitsValue_decimal isDigit run_unique takeWhile_run)

/-! ## The check -/

/-- `sizeof(type)`, and of `origin` and `host`. -/
def csrfHeaderSize : Nat := 64

/-- `tolower`. -/
def lowerByte (c : UInt8) : UInt8 := if 65 ≤ c ∧ c ≤ 90 then c + 32 else c

/-- `strcasecmp` finds no difference. -/
def sameText (a b : List UInt8) : Bool := a.map lowerByte == b.map lowerByte

/-- A blank or a tab, around a media type. -/
def isPad (c : UInt8) : Bool := c == 32 || c == 9

/-- A media type without its parameters. -/
def mediaType (text : List UInt8) : List UInt8 :=
  ((text.takeWhile (· ≠ 59)).dropWhile isPad).rdropWhile isPad

def stripDefaultPort (authority : List UInt8) : List UInt8 :=
  if (ascii ":80").length < authority.length ∧ (ascii ":80").isSuffixOf authority then
    authority.take (authority.length - (ascii ":80").length)
  else authority

/-- `type_ok`, of the `Content-Type` header. -/
def typeOk (expectedType : List UInt8) (contentType : Option (List UInt8)) : Bool :=
  match contentType with
  | none => false
  | some text => decide (text.length < csrfHeaderSize) && sameText (mediaType text) expectedType

/-- `same_origin`. -/
def sameOrigin (origin : List UInt8) (host : Option (List UInt8)) : Bool :=
  let scheme := ascii "http://"
  decide (origin.length < csrfHeaderSize) && sameText (origin.take scheme.length) scheme &&
    match host with
    | none => false
    | some host =>
        decide (host.length < csrfHeaderSize) &&
          sameText (stripDefaultPort (origin.drop scheme.length)) (stripDefaultPort host)

/-- What the check comes to: it passes, or the caller has been answered with a 415 or a 403. -/
inductive Csrf where
  | pass
  | unsupportedMediaType
  | crossOrigin
deriving DecidableEq, Repr

def csrfCheck (expectedType : List UInt8) (contentType origin host : Option (List UInt8)) : Csrf :=
  if !typeOk expectedType contentType then .unsupportedMediaType
  else match origin with
  | none => .pass
  | some origin => if sameOrigin origin host then .pass else .crossOrigin

/-! ## Origins -/

/-- A text that names a host and a port: the default port may be left out. -/
inductive Spells : List UInt8 → List UInt8 → Nat → Prop
  | plain (host : List UInt8) : Spells host host 80
  | port (host : List UInt8) (port : Nat) : Spells (host ++ 58 :: decimal port) host port

/-- The media types of the requests that go out to another site without a preflight. -/
def simpleTypes : List (List UInt8) :=
  [ascii "application/x-www-form-urlencoded", ascii "multipart/form-data", ascii "text/plain"]

section

variable {text text' host host' : List UInt8} {port port' : Nat} {expected : List UInt8}

theorem decimal_inj {m n : Nat} (h : decimal m = decimal n) : m = n := by
  rw [← digitsValue_decimal m, h, digitsValue_decimal]

theorem colon_not_digit {n : Nat} : (58 : UInt8) ∉ decimal n := fun h =>
  absurd (digit_of_mem_decimal h) (by decide)

/-- The port behind the last colon. -/
theorem port_unique {a b d d' : List UInt8} (hd : 58 ∉ d) (hd' : 58 ∉ d')
    (h : a ++ 58 :: d = b ++ 58 :: d') : a = b ∧ d = d' := by
  have hrun : ∀ {x : List UInt8}, 58 ∉ x → ∀ c ∈ x.reverse, decide (c ≠ 58) = true :=
    fun hx c hc => decide_eq_true fun h58 => hx (h58 ▸ List.mem_reverse.mp hc)
  have hreverse := congrArg List.reverse h
  rw [List.reverse_append, List.reverse_append, List.reverse_cons, List.reverse_cons,
    List.append_assoc, List.append_assoc] at hreverse
  obtain ⟨hports, hrest⟩ := run_unique (p := fun c => decide (c ≠ 58)) (hrun hd) (hrun hd')
    rfl rfl hreverse
  exact ⟨List.reverse_inj.mp (List.append_cancel_left hrest), List.reverse_inj.mp hports⟩

/-- **The default port is dropped where it is spelled out**, and nothing else is. -/
theorem stripDefaultPort_spells (h : Spells text host port) (hne : host ≠ [])
    (hhost : 58 ∉ host) :
    stripDefaultPort text = if port = 80 then host else host ++ 58 :: decimal port := by
  have hsuffix : ascii ":80" = 58 :: decimal 80 := by decide
  have hthree : (ascii ":80").length = 3 := by decide
  unfold stripDefaultPort
  cases h with
  | plain =>
    have hno : (ascii ":80").isSuffixOf text = false := by
      by_contra hyes
      obtain ⟨front, hfront⟩ := List.isSuffixOf_iff_suffix.mp (Bool.eq_true_of_not_eq_false hyes)
      refine hhost (hfront ▸ List.mem_append_right _ ?_)
      rw [hsuffix]
      exact List.mem_cons_self
    rw [hno, if_neg (by simp), if_pos rfl]
  | port =>
    by_cases hport : port = 80
    · have hlen : (host ++ 58 :: decimal port).length - 3 = host.length := by
        rw [hport, ← hsuffix, List.length_append, hthree, Nat.add_sub_cancel]
      have hlong : 3 < (host ++ 58 :: decimal port).length := by
        have := List.length_pos_iff.mpr hne
        omega
      have hyes : (ascii ":80").isSuffixOf (host ++ 58 :: decimal port) = true := by
        rw [hport, ← hsuffix]
        exact List.isSuffixOf_iff_suffix.mpr (List.suffix_append _ _)
      rw [hyes, hthree, if_pos ⟨hlong, rfl⟩, if_pos hport, hlen, List.take_left]
    · have hno : (ascii ":80").isSuffixOf (host ++ 58 :: decimal port) = false := by
        by_contra hyes
        obtain ⟨front, hfront⟩ :=
          List.isSuffixOf_iff_suffix.mp (Bool.eq_true_of_not_eq_false hyes)
        rw [hsuffix] at hfront
        exact hport (decimal_inj (port_unique colon_not_digit colon_not_digit hfront).2).symm
      rw [hno, if_neg (by simp), if_neg hport]

theorem lowerByte_colon (c : UInt8) : lowerByte c = 58 ↔ c = 58 := by
  have hall : ∀ n : Fin 256, lowerByte (UInt8.ofNat n) = 58 ↔ UInt8.ofNat n = 58 := by
    decide +kernel
  have hthis := hall ⟨c.toNat, c.toNat_lt⟩
  rwa [show UInt8.ofNat c.toNat = c from UInt8.ofNat_toNat] at hthis

theorem lower_decimal (n : Nat) : (decimal n).map lowerByte = decimal n := by
  have hall : ∀ n : Fin 256, isDigit (UInt8.ofNat n) = true →
      lowerByte (UInt8.ofNat n) = UInt8.ofNat n := by
    decide +kernel
  refine (List.map_congr_left fun c hc => ?_).trans (List.map_id _)
  have hthis := hall ⟨c.toNat, c.toNat_lt⟩
  rw [show UInt8.ofNat c.toNat = c from UInt8.ofNat_toNat] at hthis
  exact hthis (digit_of_mem_decimal hc)

theorem lower_host (hhost : 58 ∉ host) : 58 ∉ host.map lowerByte := by
  intro h
  obtain ⟨c, hc, hlower⟩ := List.mem_map.mp h
  exact hhost ((lowerByte_colon c).mp hlower ▸ hc)

/-- **Two spellings are the same text behind the default port** exactly if they name the same host,
    but for upper and lower case, and the same port. -/
theorem spells_same_iff (h : Spells text host port) (h' : Spells text' host' port')
    (hne : host ≠ []) (hne' : host' ≠ []) (hhost : 58 ∉ host) (hhost' : 58 ∉ host') :
    sameText (stripDefaultPort text) (stripDefaultPort text') = true ↔
      sameText host host' = true ∧ port = port' := by
  have hcolon : ∀ {x : List UInt8} (n : Nat), (x ++ 58 :: decimal n).map lowerByte =
      x.map lowerByte ++ 58 :: decimal n := fun n => by
    rw [List.map_append, List.map_cons, lower_decimal]
    rfl
  have hmem : ∀ {x : List UInt8} (n : Nat), (58 : UInt8) ∈ x.map lowerByte ++ 58 :: decimal n :=
    fun n => List.mem_append_right _ List.mem_cons_self
  rw [stripDefaultPort_spells h hne hhost, stripDefaultPort_spells h' hne' hhost']
  unfold sameText
  rw [beq_iff_eq, beq_iff_eq]
  by_cases hport : port = 80 <;> by_cases hport' : port' = 80
  · rw [if_pos hport, if_pos hport', hport, hport']
    exact ⟨fun heq => ⟨heq, rfl⟩, fun heq => heq.1⟩
  · rw [if_pos hport, if_neg hport', hcolon]
    refine iff_of_false (fun heq => ?_) fun heq => hport' (heq.2.symm.trans hport)
    exact lower_host hhost (heq ▸ hmem port')
  · rw [if_neg hport, if_pos hport', hcolon]
    refine iff_of_false (fun heq => ?_) fun heq => hport (heq.2.trans hport')
    exact lower_host hhost' (heq ▸ hmem port)
  · rw [if_neg hport, if_neg hport', hcolon, hcolon]
    constructor
    · intro heq
      obtain ⟨hsame, hd⟩ := port_unique colon_not_digit colon_not_digit heq
      exact ⟨hsame, decimal_inj hd⟩
    · rintro ⟨hsame, rfl⟩
      rw [hsame]

/-! ## What passes -/

theorem sameText_length {a b : List UInt8} (h : sameText a b = true) : a.length = b.length := by
  have hlen := congrArg List.length (eq_of_beq h)
  simpa using hlen

theorem sameOrigin_iff {scheme authority sent : List UInt8}
    (hscheme : sameText scheme (ascii "http://") = true)
    (h : Spells authority host port) (h' : Spells sent host' port')
    (hne : host ≠ []) (hne' : host' ≠ []) (hhost : 58 ∉ host) (hhost' : 58 ∉ host')
    (hlen : (scheme ++ authority).length < csrfHeaderSize) (hlen' : sent.length < csrfHeaderSize) :
    sameOrigin (scheme ++ authority) (some sent) = true ↔
      sameText host host' = true ∧ port = port' := by
  have hseven := sameText_length hscheme
  unfold sameOrigin
  dsimp only
  rw [← hseven, List.take_left, List.drop_left, decide_eq_true hlen, decide_eq_true hlen',
    hscheme, Bool.true_and, Bool.true_and, Bool.true_and]
  exact spells_same_iff h h' hne hne' hhost hhost'

theorem csrfCheck_type {contentType : Option (List UInt8)} (origin sent : Option (List UInt8))
    (h : typeOk expected contentType = false) :
    csrfCheck expected contentType origin sent = .unsupportedMediaType := by
  unfold csrfCheck
  rw [h]
  rfl

theorem csrfCheck_origin (expected : List UInt8) (contentType : Option (List UInt8))
    (origin : List UInt8) (sent : Option (List UInt8)) :
    csrfCheck expected contentType (some origin) sent = .pass ↔
      typeOk expected contentType = true ∧ sameOrigin origin sent = true := by
  unfold csrfCheck
  dsimp only
  cases typeOk expected contentType <;> cases sameOrigin origin sent <;> decide

/-- What a browser sends to another site without asking it first is refused. -/
theorem simple_refused {contentType : Option (List UInt8)} (origin sent : Option (List UInt8))
    (h : ∀ text ∈ contentType, ∃ simple ∈ simpleTypes, sameText (mediaType text) simple = true)
    (hexpected : expected = ascii "application/json" ∨
      expected = ascii "application/octet-stream") :
    csrfCheck expected contentType origin sent = .unsupportedMediaType := by
  have hno : typeOk expected contentType = false := by
    cases contentType with
    | none => rfl
    | some text =>
      obtain ⟨simple, hsimple, hsame⟩ := h text rfl
      have hother : ∀ simple ∈ simpleTypes,
          sameText simple (ascii "application/json") = false ∧
            sameText simple (ascii "application/octet-stream") = false := by
        decide
      have hdiffers : sameText (mediaType text) expected = false := by
        unfold sameText at hsame ⊢
        rw [eq_of_beq hsame]
        rcases hexpected with rfl | rfl
        · exact (hother simple hsimple).1
        · exact (hother simple hsimple).2
      rw [typeOk, hdiffers, Bool.and_false]
  exact csrfCheck_type origin sent hno

end

/-! ## The settings -/

/-- A request as it arrives: its headers, what the connection returns of its body, and whether the
    flash takes what is saved. -/
structure RawRequest where
  authorization : Option (List UInt8)
  contentType : Option (List UInt8)
  origin : Option (List UInt8)
  host : Option (List UInt8)
  content : List UInt8
  recvs : List Recv
  saves : Bool
deriving DecidableEq, Repr

/-- With what the two checks say of it. -/
def RawRequest.toPost (s : Settings) (r : RawRequest) : PostRequest where
  authorized := checkAdminAuth s.auth r.authorization
  csrf := csrfCheck (ascii "application/json") r.contentType r.origin r.host == .pass
  content := r.content
  recvs := r.recvs
  saves := r.saves

def serve (s : Settings) (r : Endpoint × RawRequest) : Settings := (post r.1 s (r.2.toPost s)).1

/-- A request that a page of another site had a browser make: without a media type that needs a
    preflight, or with an origin that is not a server of this kind, or not this one. -/
inductive FromElsewhere (r : RawRequest) : Prop
  | simple (h : ∀ text ∈ r.contentType, ∃ simple ∈ simpleTypes,
      sameText (mediaType text) simple = true)
  | scheme (origin : List UInt8) (horigin : r.origin = some origin)
      (h : sameText (origin.take 7) (ascii "http://") = false)
  | origin (scheme authority sent host host' : List UInt8) (port port' : Nat)
      (horigin : r.origin = some (scheme ++ authority)) (hsent : r.host = some sent)
      (hscheme : sameText scheme (ascii "http://") = true)
      (hspells : Spells authority host port) (hspells' : Spells sent host' port')
      (hne : host ≠ []) (hne' : host' ≠ []) (hhost : 58 ∉ host) (hhost' : 58 ∉ host')
      (h : ¬(sameText host host' = true ∧ port = port'))

/-- A request of somebody who has not got the credentials, or of another site, or one that is
    barred until the default password is changed. -/
inductive Stranger (s : Settings) : Endpoint × RawRequest → Prop
  | credentials (e : Endpoint) (r : RawRequest)
      (h : checkAdminAuth s.auth r.authorization = false) : Stranger s (e, r)
  | elsewhere (e : Endpoint) (r : RawRequest) (h : FromElsewhere r) : Stranger s (e, r)
  | setup (e : Endpoint) (r : RawRequest) (hdefault : s.passwordIsDefault = true)
      (h : e ≠ .admin) : Stranger s (e, r)

section

variable {s : Settings} {r : RawRequest} {e : Endpoint} {req : PostRequest} {setup : Bool}

theorem FromElsewhere.refused (h : FromElsewhere r) :
    csrfCheck (ascii "application/json") r.contentType r.origin r.host ≠ .pass := by
  cases h with
  | simple h =>
    rw [simple_refused r.origin r.host h (.inl rfl)]
    decide
  | scheme origin horigin h =>
    have hno : sameOrigin origin r.host = false := by
      unfold sameOrigin
      have hseven : (ascii "http://").length = 7 := by decide
      dsimp only
      rw [hseven, h, Bool.and_false, Bool.false_and]
    rw [horigin]
    intro hpass
    have hyes := ((csrfCheck_origin _ _ _ _).mp hpass).2
    exact absurd (hno.symm.trans hyes) Bool.false_ne_true
  | origin scheme authority sent host host' port port' horigin hsent hscheme hspells hspells' hne
      hne' hhost hhost' h =>
    rw [horigin, hsent]
    intro hpass
    by_cases hlen : (scheme ++ authority).length < csrfHeaderSize ∧ sent.length < csrfHeaderSize
    · exact h ((sameOrigin_iff hscheme hspells hspells' hne hne' hhost hhost' hlen.1
        hlen.2).mp ((csrfCheck_origin _ _ _ _).mp hpass).2)
    · -- a header that is cut short is not compared
      have hno : sameOrigin (scheme ++ authority) (some sent) = false := by
        unfold sameOrigin
        dsimp only
        rcases not_and_or.mp hlen with hlong | hlong
        · rw [decide_eq_false hlong, Bool.false_and, Bool.false_and]
        · rw [decide_eq_false hlong, Bool.false_and, Bool.and_false]
      have hyes := ((csrfCheck_origin _ _ _ _).mp hpass).2
      exact absurd (hno.symm.trans hyes) Bool.false_ne_true

/-- A handler that has been told no has not changed anything. -/
theorem post_refused (e : Endpoint) (h : req.authorized = false ∨ req.csrf = false ∨
    (s.passwordIsDefault = true ∧ e ≠ .admin)) : (post e s req).1 = s := by
  have hreceive : ∀ setup n, (setup = true ∨ e = .admin) →
      ∃ answer, receive s req setup n = .error answer := by
    intro setup n hsetup
    unfold receive
    split
    · exact ⟨_, rfl⟩
    · rename_i hauth
      split
      · exact ⟨_, rfl⟩
      · rename_i hopen
        split
        · exact ⟨_, rfl⟩
        · rename_i hcsrf
          rcases h with h | h | ⟨hdefault, hadmin⟩
          · exact absurd (by rw [h]; rfl) hauth
          · exact absurd (by rw [h]; rfl) hcsrf
          · rcases hsetup with rfl | rfl
            · exact absurd (by rw [hdefault]; rfl) hopen
            · exact absurd rfl hadmin
  cases e with
  | admin =>
    obtain ⟨answer, hanswer⟩ := hreceive false 256 (.inr rfl)
    unfold post adminPost
    dsimp only
    rw [hanswer]
  | wifi =>
    obtain ⟨answer, hanswer⟩ := hreceive true 256 (.inl rfl)
    unfold post wifiPost
    dsimp only
    rw [hanswer]
  | wan =>
    obtain ⟨answer, hanswer⟩ := hreceive true 512 (.inl rfl)
    unfold post wanPost
    dsimp only
    rw [hanswer]

theorem Stranger.unchanged (h : Stranger s (e, r)) : serve s (e, r) = s := by
  refine post_refused e ?_
  cases h with
  | credentials _ _ h => exact .inl h
  | elsewhere _ _ h => exact .inr (.inl (beq_eq_false_iff_ne.mpr h.refused))
  | setup _ _ hdefault h => exact .inr (.inr ⟨hdefault, h⟩)

/-- A guess, a form on another site's page that the right credentials go out with, and a script on
    one that asks for JSON. -/
def visits : List (Endpoint × RawRequest) :=
  let body := ascii "\"new_admin_password\":\"evil\""
  let known := some (basicHeader (ascii "ZmFybTp0cmFjdG9y"))
  let host := some (ascii "192.168.5.1")
  [(.admin, ⟨none, some (ascii "application/json"), none, host, body, [], true⟩),
    (.admin, ⟨known, some (ascii "text/plain"), none, host, body, [], true⟩),
    (.admin, ⟨known, some (ascii "application/json"), some (ascii "http://evil.example"), host,
      body, [], true⟩)]

end

end Web
end Wt32Router
