/-!
# Reading UTF-8

Bytes are read as UTF-8 character by character. A byte sequence that starts like a character and
breaks off counts as one unreadable piece, as does each byte that can start no character, so every
byte string has a shown form with a replacement character for each unreadable piece.
-/

namespace Nanoservice.Text.Utf8

/-- A byte that may continue a character. -/
def isContinuation (b : UInt8) : Bool :=
  0x80 ≤ b && b ≤ 0xBF

/-- The second bytes that may follow a first byte of a three-byte character. -/
def secondOfThree (b0 b1 : UInt8) : Bool :=
  if b0 == 0xE0 then 0xA0 ≤ b1 && b1 ≤ 0xBF
  else if b0 == 0xED then 0x80 ≤ b1 && b1 ≤ 0x9F
  else isContinuation b1

/-- The second bytes that may follow a first byte of a four-byte character. -/
def secondOfFour (b0 b1 : UInt8) : Bool :=
  if b0 == 0xF0 then 0x90 ≤ b1 && b1 ≤ 0xBF
  else if b0 == 0xF4 then 0x80 ≤ b1 && b1 ≤ 0x8F
  else isContinuation b1

/-- The character whose lead byte carries `lead` and whose further bytes are `more`. -/
def assemble (lead : Nat) (more : List UInt8) : Char :=
  Char.ofNat (more.foldl (fun n b => n * 64 + (b.toNat - 0x80)) lead)

/-- The characters of a byte string, `none` standing for each unreadable piece. -/
def pieces : List UInt8 → List (Option Char)
  | [] => []
  | b0 :: r0 =>
    if b0 < 0x80 then some (Char.ofNat b0.toNat) :: pieces r0
    else if 0xC2 ≤ b0 && b0 ≤ 0xDF then
      match r0 with
      | [] => [none]
      | b1 :: r1 =>
        if isContinuation b1 then some (assemble (b0.toNat - 0xC0) [b1]) :: pieces r1
        else none :: pieces (b1 :: r1)
    else if 0xE0 ≤ b0 && b0 ≤ 0xEF then
      match r0 with
      | [] => [none]
      | b1 :: r1 =>
        if secondOfThree b0 b1 then
          match r1 with
          | [] => [none]
          | b2 :: r2 =>
            if isContinuation b2 then some (assemble (b0.toNat - 0xE0) [b1, b2]) :: pieces r2
            else none :: pieces (b2 :: r2)
        else none :: pieces (b1 :: r1)
    else if 0xF0 ≤ b0 && b0 ≤ 0xF4 then
      match r0 with
      | [] => [none]
      | b1 :: r1 =>
        if secondOfFour b0 b1 then
          match r1 with
          | [] => [none]
          | b2 :: r2 =>
            if isContinuation b2 then
              match r2 with
              | [] => [none]
              | b3 :: r3 =>
                if isContinuation b3 then
                  some (assemble (b0.toNat - 0xF0) [b1, b2, b3]) :: pieces r3
                else none :: pieces (b3 :: r3)
            else none :: pieces (b2 :: r2)
        else none :: pieces (b1 :: r1)
    else none :: pieces r0

/-- The text of a byte string all of whose pieces are readable. -/
def decode? (bytes : List UInt8) : Option String :=
  ((pieces bytes).mapM id).map String.ofList

/-- The shown form of a byte string, with U+FFFD for each unreadable piece. -/
def decodeShown (bytes : List UInt8) : String :=
  String.ofList ((pieces bytes).map fun c => c.getD '\ufffd')

end Nanoservice.Text.Utf8
