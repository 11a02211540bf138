/-!
Text as bytes and back. Encoding is exact. Decoding accepts any bytes: where
they are not UTF-8, the longest beginning of a character that could still have
been completed gives one replacement character, and so does a byte that can
begin nothing. Bytes that are UTF-8 decode to the text they encode.
-/
namespace ImapSession.Utf8

def encode (s : String) : List UInt8 := s.toList.flatMap String.utf8EncodeChar

def replacement : Char := '\ufffd'

/-- What a first byte promises: the character itself, or how many bytes follow
and between which bounds the first of them lies. -/
inductive Lead where
  | one
  | two
  | three (low high : UInt8)
  | four (low high : UInt8)
  | none
  deriving DecidableEq, Repr

def lead (b : UInt8) : Lead :=
  if b < 0x80 then .one
  else if b < 0xc2 then .none
  else if b < 0xe0 then .two
  else if b = 0xe0 then .three 0xa0 0xbf
  else if b = 0xed then .three 0x80 0x9f
  else if b < 0xf0 then .three 0x80 0xbf
  else if b = 0xf0 then .four 0x90 0xbf
  else if b < 0xf4 then .four 0x80 0xbf
  else if b = 0xf4 then .four 0x80 0x8f
  else .none

def isTail (b : UInt8) : Bool := 0x80 ≤ b && b ≤ 0xbf

/-- The six low bits that a continuing byte carries. -/
def tailBits (b : UInt8) : Nat := b.toNat % 64

/-- Decode onto the characters already read, latest first. -/
def decodeOnto (done : List Char) : List UInt8 → List Char
  | [] => done.reverse
  | a :: r =>
    match lead a with
    | .one => decodeOnto (Char.ofNat a.toNat :: done) r
    | .none => decodeOnto (replacement :: done) r
    | .two =>
      match r with
      | [] => (replacement :: done).reverse
      | b :: s =>
        if isTail b then
          decodeOnto (Char.ofNat (a.toNat % 32 * 64 + tailBits b) :: done) s
        else decodeOnto (replacement :: done) (b :: s)
    | .three low high =>
      match r with
      | [] => (replacement :: done).reverse
      | b :: s =>
        if low ≤ b && b ≤ high then
          match s with
          | [] => (replacement :: done).reverse
          | c :: t =>
            if isTail c then
              decodeOnto
                (Char.ofNat ((a.toNat % 16 * 64 + tailBits b) * 64 + tailBits c) :: done) t
            else decodeOnto (replacement :: done) (c :: t)
        else decodeOnto (replacement :: done) (b :: s)
    | .four low high =>
      match r with
      | [] => (replacement :: done).reverse
      | b :: s =>
        if low ≤ b && b ≤ high then
          match s with
          | [] => (replacement :: done).reverse
          | c :: t =>
            if isTail c then
              match t with
              | [] => (replacement :: done).reverse
              | d :: u =>
                if isTail d then
                  decodeOnto (Char.ofNat
                    (((a.toNat % 8 * 64 + tailBits b) * 64 + tailBits c) * 64 + tailBits d) ::
                      done) u
                else decodeOnto (replacement :: done) (d :: u)
            else decodeOnto (replacement :: done) (c :: t)
        else decodeOnto (replacement :: done) (b :: s)

/-- The text of some bytes, replacement characters standing for what is not UTF-8. -/
def decode (bytes : List UInt8) : String := String.ofList (decodeOnto [] bytes)

/-- The text of some bytes, if they are UTF-8. -/
def decode? (bytes : List UInt8) : Option String :=
  let s := decode bytes
  if encode s = bytes then some s else none

end ImapSession.Utf8
