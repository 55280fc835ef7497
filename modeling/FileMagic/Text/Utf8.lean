import FileMagic.Text.Basic

/-! UTF-8. Decoding never fails: the longest start of a well-formed sequence that cannot be
completed becomes one replacement character, and so does every octet that starts none. The
decoder is a machine whose state holds what may follow, so that it reads octets one by one. -/

namespace FileMagic

def Text.utf8 (t : Text) : Bytes := t.flatMap String.utf8EncodeChar

theorem Text.utf8_ne_nil {t : Text} (h : t ≠ []) : t.utf8 ≠ [] := by
  cases t with
  | nil => exact absurd rfl h
  | cons c rest => exact List.append_ne_nil_of_left_ne_nil String.utf8EncodeChar_ne_nil _

namespace Utf8

def replacement : Char := '\ufffd'

/-- Between characters, or inside one: the value so far, how many octets are missing and the
range of the next one. -/
inductive State where
  | ready
  | inside (value missing low high : Nat)
deriving DecidableEq, Repr

/-- Reading an octet where a character may start. The range of a second octet keeps out
overlong forms, surrogates and values beyond the last code point. -/
def start (b : Nat) : Text × State :=
  if b < 0x80 then ([Char.ofNat b], .ready)
  else if b < 0xc2 then ([replacement], .ready)
  else if b < 0xe0 then ([], .inside (b - 0xc0) 1 0x80 0xbf)
  else if b = 0xe0 then ([], .inside 0 2 0xa0 0xbf)
  else if b = 0xed then ([], .inside 0xd 2 0x80 0x9f)
  else if b < 0xf0 then ([], .inside (b - 0xe0) 2 0x80 0xbf)
  else if b = 0xf0 then ([], .inside 0 3 0x90 0xbf)
  else if b < 0xf4 then ([], .inside (b - 0xf0) 3 0x80 0xbf)
  else if b = 0xf4 then ([], .inside 4 3 0x80 0x8f)
  else ([replacement], .ready)

def step : State → Nat → Text × State
  | .ready, b => start b
  | .inside value missing low high, b =>
    if low ≤ b && b ≤ high then
      let value := value * 64 + (b - 0x80)
      if missing ≤ 1 then ([Char.ofNat value], .ready)
      else ([], .inside value (missing - 1) 0x80 0xbf)
    else (replacement :: (start b).1, (start b).2)

/-- What the octets left over at the end stand for. -/
def State.rest : State → Text
  | .ready => []
  | .inside .. => [replacement]

def decodeFrom (s : State) : Bytes → Text
  | [] => s.rest
  | b :: bs => (step s b.toNat).1 ++ decodeFrom (step s b.toNat).2 bs

def decode (bs : Bytes) : Text := decodeFrom .ready bs

/-- The text that the octets encode, if they are well formed: no replacement has been made
exactly when encoding gives the octets back. -/
def decode? (bs : Bytes) : Option Text :=
  let t := decode bs
  if t.utf8 = bs then some t else none

end Utf8
end FileMagic
