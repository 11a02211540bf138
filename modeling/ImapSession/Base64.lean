/-!
Base64 over the standard alphabet. Encoding pads to a multiple of four symbols.
Decoding is exact about the alphabet and lenient about the end: the padding may
be missing in part or in whole, and the bits of the last symbol that belong to
no byte are not looked at.
-/
namespace ImapSession.Base64

/-- Why some bytes are not base64. -/
inductive Fault where
  | symbol (byte : UInt8) (offset : Nat)
  | length (symbols : Nat)
  deriving DecidableEq, Repr

def Fault.message : Fault → String
  | .symbol byte offset => s!"Invalid symbol {byte}, offset {offset}."
  | .length symbols => s!"Invalid input length: {symbols}"

def pad : UInt8 := 0x3d

def symbol (v : Nat) : Char :=
  if v < 26 then Char.ofNat (0x41 + v)
  else if v < 52 then Char.ofNat (0x61 + (v - 26))
  else if v < 62 then Char.ofNat (0x30 + (v - 52))
  else if v = 62 then '+'
  else '/'

def value? (b : UInt8) : Option Nat :=
  if 0x41 ≤ b && b ≤ 0x5a then some (b.toNat - 0x41)
  else if 0x61 ≤ b && b ≤ 0x7a then some (b.toNat - 0x61 + 26)
  else if 0x30 ≤ b && b ≤ 0x39 then some (b.toNat - 0x30 + 52)
  else if b = 0x2b then some 62
  else if b = 0x2f then some 63
  else none

/-- Three bytes make four symbols, and padding fills the last group. -/
def symbols : List UInt8 → List Char
  | [] => []
  | [x] =>
    let n := x.toNat * 16
    [symbol (n / 64), symbol (n % 64), '=', '=']
  | [x, y] =>
    let n := (x.toNat * 256 + y.toNat) * 4
    [symbol (n / 4096), symbol (n / 64 % 64), symbol (n % 64), '=']
  | x :: y :: z :: r =>
    let n := (x.toNat * 256 + y.toNat) * 256 + z.toNat
    symbol (n / 262144) :: symbol (n / 4096 % 64) :: symbol (n / 64 % 64) ::
      symbol (n % 64) :: symbols r

def encode (bytes : List UInt8) : String := String.ofList (symbols bytes)

/-- Four values make three bytes; two or three values at the end make one or two. -/
def unpack : List Nat → List UInt8
  | a :: b :: c :: d :: r =>
    let n := ((a * 64 + b) * 64 + c) * 64 + d
    UInt8.ofNat (n / 65536) :: UInt8.ofNat (n / 256 % 256) :: UInt8.ofNat (n % 256) :: unpack r
  | [a, b, c] =>
    let n := (a * 64 + b) * 64 + c
    [UInt8.ofNat (n / 1024), UInt8.ofNat (n / 4 % 256)]
  | [a, b] => [UInt8.ofNat ((a * 64 + b) / 16)]
  | _ => []

/-- The values of the groups before the last, from the offset of the first byte. -/
def body (offset : Nat) (done : List Nat) : List UInt8 → Except Fault (List Nat)
  | [] => .ok done.reverse
  | b :: r =>
    match value? b with
    | some v => body (offset + 1) (v :: done) r
    | none => .error (.symbol b offset)

/-- The values of the last group. Padding may only follow two symbols, and
nothing may follow padding: then the first padding byte is at fault. -/
def lastGroup (start : Nat) : List UInt8 → Except Fault (List Nat)
  | [] => .ok []
  | bytes =>
    let group := bytes.takeWhile (· ≠ pad)
    match body start [] group with
    | .error f => .error f
    | .ok values =>
      let padding := bytes.drop group.length
      if padding ≠ [] ∧ (group.length < 2 ∨ padding.any (· ≠ pad)) then
        .error (.symbol pad (start + group.length))
      else if group.length < 2 then .error (.length (start + group.length))
      else .ok values

/-- Where the last group begins: it has what is left after groups of four, or
four symbols if nothing is left. -/
def lastStart (n : Nat) : Nat := if n % 4 = 0 then n - 4 else n - n % 4

/-- A last byte that stands alone in its group and is no symbol of any kind is
reported before all else. -/
def strayEnd? (bytes : List UInt8) : Option Fault :=
  match bytes.getLast? with
  | none => none
  | some b =>
    if bytes.length % 4 = 1 ∧ (value? b).isNone ∧ b ≠ pad then
      some (.symbol b (bytes.length - 1))
    else none

def decode (bytes : List UInt8) : Except Fault (List UInt8) :=
  match strayEnd? bytes with
  | some f => .error f
  | none =>
    let start := lastStart bytes.length
    match body 0 [] (bytes.take start) with
    | .error f => .error f
    | .ok first =>
      match lastGroup start (bytes.drop start) with
      | .error f => .error f
      | .ok last => .ok (unpack (first ++ last))

end ImapSession.Base64
