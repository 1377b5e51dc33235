import Wt32Router.Lib.Ascii

/-!
# Reading a request body

`recv_body` of `main/web_server.c` takes a body whole or not at all. `json_get_string` and
`json_get_int` then look for a key in it and read what follows the colon; they know nothing of
the text around it. A string is decoded into a buffer, and the decoding stops where the buffer
is full: `jsonValue` is the string as it stands in the body, and `jsonGetString` cuts it.
-/

namespace Wt32Router
namespace Web

open Lib (ascii strchr strstr strtol)

/-- `RECV_BODY_MAX_TIMEOUTS`. -/
def recvBodyMaxTimeouts : Nat := 3

/-- What one `httpd_req_recv` returns: one byte more than `n`, or what is left, or no byte. -/
inductive Recv where
  | bytes (n : Nat)
  | timeout
  | failed
deriving DecidableEq, Repr

/-- The loop of `recv_body`, for a body of `content`. -/
def recvLoop (content : List UInt8) (total timeouts : Nat) : List Recv → Option (List UInt8)
  | [] => if content.length ≤ total then some (content.take total) else none
  | r :: recvs =>
      if content.length ≤ total then some (content.take total)
      else match r with
        | .bytes n =>
            recvLoop content (total + min (n + 1) (content.length - total)) timeouts recvs
        | .timeout =>
            if timeouts + 1 ≤ recvBodyMaxTimeouts then recvLoop content total (timeouts + 1) recvs
            else none
        | .failed => none

def recvBody (bufsz : Nat) (content : List UInt8) (recvs : List Recv) : Option (List UInt8) :=
  if content.length = 0 ∨ bufsz ≤ content.length then none else recvLoop content 0 0 recvs

/-- The key in quotes, as much of it as `pattern[32]` takes. -/
def jsonPattern (key : String) : List UInt8 :=
  (ascii "\"" ++ ascii key ++ ascii "\"").take 31

/-- The text behind the colon of `key`. -/
def jsonFind (json : List UInt8) (key : String) : Option (List UInt8) :=
  (strstr (jsonPattern key) json).bind fun p =>
    (strchr 58 (p.drop (jsonPattern key).length)).map List.tail

def isBlank (c : UInt8) : Bool := c == 32 || c == 9

/-- The loop of `json_get_string`, with room for `n` more bytes. -/
def decodeLoop : Nat → List UInt8 → List UInt8
  | 0, _ => []
  | _ + 1, [] => []
  | _ + 1, [c] => if c = 34 then [] else [c]
  | n + 1, c :: d :: p =>
      if c = 34 then []
      else if c = 92 then d :: decodeLoop n p
      else c :: decodeLoop n (d :: p)

/-- Where the string of `key` begins, behind its quote. -/
def jsonString (json : List UInt8) (key : String) : Option (List UInt8) :=
  (jsonFind json key).bind fun p =>
    let p := p.dropWhile isBlank
    if p.head? = some 34 then some p.tail else none

def jsonGetString (json : List UInt8) (key : String) (outLen : Nat) : Option (List UInt8) :=
  (jsonString json key).map (decodeLoop (outLen - 1))

def jsonGetInt (json : List UInt8) (key : String) : Option Int :=
  (jsonFind json key).bind strtol

/-- A string of the body up to its closing quote, with the backslashes taken out. -/
def decoded : List UInt8 → List UInt8
  | [] => []
  | [c] => if c = 34 then [] else [c]
  | c :: d :: p =>
      if c = 34 then []
      else if c = 92 then d :: decoded p
      else c :: decoded (d :: p)

/-- The whole value of `key`. -/
def jsonValue (json : List UInt8) (key : String) : Option (List UInt8) :=
  (jsonString json key).map decoded

/-- A string as a sender puts it between quotes. -/
def quoted (v : List UInt8) : List UInt8 :=
  v.flatMap fun c => if c = 34 ∨ c = 92 then [92, c] else [c]

section

variable {json content buf : List UInt8} {key : String} {recvs : List Recv}
  {bufsz outLen total timeouts : Nat}

theorem isBlank_of_digit {c : UInt8} (hc : Lib.isDigit c = true) : isBlank c = false := by
  have hspace := (Lib.digit_ne hc).1
  simp only [Lib.isSpace, Bool.or_eq_false_iff, beq_eq_false_iff_ne] at hspace
  have htab : c ≠ 9 := by
    rintro rfl
    exact absurd hc (by decide)
  simp [isBlank, hspace.1, htab]

/-- The buffer cuts the value, and does nothing else to it. -/
theorem decodeLoop_eq_take (n : Nat) (p : List UInt8) :
    decodeLoop n p = (decoded p).take n := by
  induction n, p using decodeLoop.induct with
  | case1 p => simp [decodeLoop]
  | case2 n => simp [decodeLoop, decoded]
  | case3 n => simp [decodeLoop, decoded]
  | case4 n c hc => simp [decodeLoop, decoded, hc]
  | case5 n d p => simp [decodeLoop, decoded]
  | case6 n d p hq ih => simp [decodeLoop, decoded, hq, ih]
  | case7 n c d p hc hb ih => simp [decodeLoop, decoded, hc, hb, ih]

theorem jsonGetString_eq_take :
    jsonGetString json key outLen = (jsonValue json key).map (List.take (outLen - 1)) := by
  unfold jsonGetString jsonValue
  rw [Option.map_map]
  congr 1
  funext p
  exact decodeLoop_eq_take _ p

/-- The decoding undoes the quoting. -/
theorem decoded_quoted (v rest : List UInt8) : decoded (quoted v ++ 34 :: rest) = v := by
  induction v with
  | nil => cases rest <;> simp [quoted, decoded]
  | cons c v ih =>
    have htail : quoted v ++ 34 :: rest ≠ [] := by simp
    obtain ⟨d, p, hcons⟩ := List.exists_cons_of_ne_nil htail
    by_cases hc : c = 34 ∨ c = 92
    · have hhead : quoted (c :: v) ++ 34 :: rest = 92 :: c :: (quoted v ++ 34 :: rest) := by
        simp [quoted, hc]
      rw [hhead, decoded, if_neg (by decide), if_pos rfl, ih]
    · have hhead : quoted (c :: v) ++ 34 :: rest = c :: d :: p := by
        rw [← hcons]
        simp [quoted, hc]
      rw [hhead, decoded, if_neg fun h => hc (.inl h), if_neg fun h => hc (.inr h), ← hcons, ih]

/-- Where the key in quotes comes first in front of its colon, what follows is read. -/
theorem jsonFind_field {rest : List UInt8}
    (h : strstr (jsonPattern key) json = some (jsonPattern key ++ 58 :: rest)) :
    jsonFind json key = some rest := by
  have hcolon : strchr 58 (58 :: rest) = some (58 :: rest) := rfl
  unfold jsonFind
  rw [h, Option.bind_some, List.drop_left, hcolon]
  rfl

/-- Where the key in quotes comes first in front of its string, that string is its value. -/
theorem jsonValue_field {v rest : List UInt8}
    (h : strstr (jsonPattern key) json =
      some (jsonPattern key ++ 58 :: 34 :: (quoted v ++ 34 :: rest))) :
    jsonValue json key = some v := by
  have hblank : (34 :: (quoted v ++ 34 :: rest)).dropWhile isBlank =
      34 :: (quoted v ++ 34 :: rest) := rfl
  unfold jsonValue jsonString
  rw [jsonFind_field h, Option.bind_some]
  dsimp only
  rw [hblank, List.head?_cons, if_pos rfl, List.tail_cons, Option.map_some, decoded_quoted]

theorem jsonGetString_of_fits (h : ∀ v, jsonValue json key = some v → v.length < outLen) :
    jsonGetString json key outLen = jsonValue json key := by
  rw [jsonGetString_eq_take]
  cases hv : jsonValue json key with
  | none => rfl
  | some v =>
    have hlt := h v hv
    exact congrArg some (List.take_of_length_le (by omega))

/-- What has been received is the body, or the request is refused: never a part of it. -/
theorem recvLoop_some (h : recvLoop content total timeouts recvs = some buf) : buf = content := by
  have hwhole : content.length ≤ total → some (content.take total) = some buf → buf = content :=
    fun hle heq => (Option.some.inj heq).symm.trans (List.take_of_length_le hle)
  induction recvs generalizing total timeouts with
  | nil =>
    unfold recvLoop at h
    split at h
    · rename_i hle
      exact hwhole hle h
    · exact absurd h (by simp)
  | cons r recvs ih =>
    unfold recvLoop at h
    split at h
    · rename_i hle
      exact hwhole hle h
    · cases r with
      | bytes n =>
        exact ih h fun hle heq => (Option.some.inj heq).symm.trans (List.take_of_length_le hle)
      | timeout =>
        dsimp only at h
        split at h
        · exact ih h hwhole
        · exact absurd h (by simp)
      | failed => exact absurd h (by simp)

theorem recvBody_some (h : recvBody bufsz content recvs = some buf) : buf = content := by
  unfold recvBody at h
  split at h
  · exact absurd h (by simp)
  · exact recvLoop_some h

end

end Web
end Wt32Router
