namespace ObjectMarkup

/-- The content of a file. -/
abbrev Bytes := List UInt8

namespace Text

/-- A character in progress: how many bytes it still needs, and in which range the next one must
lie. -/
structure Unfinished where
  /-- Offset of its first byte. -/
  start : Nat
  /-- Bytes still to come. -/
  missing : Nat
  /-- Least value of the next byte. -/
  low : Nat
  /-- Greatest value of the next byte. -/
  high : Nat
  /-- Bits read so far. -/
  code : Nat

/-- What the first byte of a character begins; `none` where no character begins with it. -/
def beginChar (start byte : Nat) : Option (Char ⊕ Unfinished) :=
  if byte < 0x80 then some (.inl (Char.ofNat byte))
  else if byte < 0xC2 then none
  else if byte < 0xE0 then some (.inr ⟨start, 1, 0x80, 0xBF, byte - 0xC0⟩)
  else if byte = 0xE0 then some (.inr ⟨start, 2, 0xA0, 0xBF, 0⟩)
  else if byte = 0xED then some (.inr ⟨start, 2, 0x80, 0x9F, 0xD⟩)
  else if byte < 0xF0 then some (.inr ⟨start, 2, 0x80, 0xBF, byte - 0xE0⟩)
  else if byte = 0xF0 then some (.inr ⟨start, 3, 0x90, 0xBF, 0⟩)
  else if byte < 0xF4 then some (.inr ⟨start, 3, 0x80, 0xBF, byte - 0xF0⟩)
  else if byte = 0xF4 then some (.inr ⟨start, 3, 0x80, 0x8F, 4⟩)
  else none

/-- What the next byte makes of a character in progress. -/
def continueChar (u : Unfinished) (byte : Nat) : Option (Char ⊕ Unfinished) :=
  if byte < u.low || u.high < byte then none
  else
    let code := u.code * 64 + (byte - 0x80)
    if u.missing ≤ 1 then some (.inl (Char.ofNat code))
    else some (.inr ⟨u.start, u.missing - 1, 0x80, 0xBF, code⟩)

/-- Decodes the bytes from offset `position` on. The error is the number of leading bytes that are
complete characters. -/
def decodeFrom (position : Nat) : Option Unfinished → Bytes → Except Nat (List Char)
  | none, [] => .ok []
  | some u, [] => .error u.start
  | none, b :: rest =>
    match beginChar position b.toNat with
    | none => .error position
    | some (.inl c) => (decodeFrom (position + 1) none rest).map (c :: ·)
    | some (.inr u) => decodeFrom (position + 1) (some u) rest
  | some u, b :: rest =>
    match continueChar u b.toNat with
    | none => .error u.start
    | some (.inl c) => (decodeFrom (position + 1) none rest).map (c :: ·)
    | some (.inr u) => decodeFrom (position + 1) (some u) rest

/-- The text that the bytes encode, or the number of leading bytes that are text. -/
def decode (bytes : Bytes) : Except Nat (List Char) := decodeFrom 0 none bytes

def encode (cs : List Char) : Bytes := cs.flatMap String.utf8EncodeChar

def byteLength : List Char → Nat
  | [] => 0
  | c :: cs => c.utf8Size + byteLength cs

/-- The text without a byte order mark at its start. -/
def dropMark : List Char → List Char
  | '\uFEFF' :: rest => rest
  | cs => cs

@[simp] theorem byteLength_nil : byteLength [] = 0 := rfl

@[simp] theorem byteLength_cons (c : Char) (cs : List Char) :
    byteLength (c :: cs) = c.utf8Size + byteLength cs := rfl

@[simp] theorem byteLength_append (a b : List Char) :
    byteLength (a ++ b) = byteLength a + byteLength b := by
  induction a with
  | nil => simp
  | cons c a ih => simp [ih, Nat.add_assoc]

end Text

end ObjectMarkup
