import Mathlib.Data.List.Basic

/-!
# Base64 for URLs, without padding

`encode` writes three bytes as four letters of the URL-safe alphabet; one or two bytes at
the end take two or three.  `decode` accepts no padding, no other letter, and no bits left
over that are not zero.

    decode (encode bytes) = some bytes                      (decode_encode)
-/

namespace Base64Url

/-! ## The alphabet -/

def symbol (n : Nat) : Char :=
  if n < 26 then Char.ofNat (65 + n)
  else if n < 52 then Char.ofNat (71 + n)
  else if n < 62 then Char.ofNat (n - 4)
  else if n = 62 then '-'
  else '_'

def sextet (c : Char) : Option Nat :=
  if 'A' ≤ c ∧ c ≤ 'Z' then some (c.toNat - 65)
  else if 'a' ≤ c ∧ c ≤ 'z' then some (c.toNat - 71)
  else if '0' ≤ c ∧ c ≤ '9' then some (c.toNat + 4)
  else if c = '-' then some 62
  else if c = '_' then some 63
  else none

theorem sextet_symbol : ∀ n, n < 64 → sextet (symbol n) = some n := by
  decide

/-! ## Bytes -/

def encode : List UInt8 → List Char
  | [] => []
  | [a] => [symbol (a.toNat / 4), symbol (a.toNat % 4 * 16)]
  | [a, b] =>
    [symbol (a.toNat / 4), symbol (a.toNat % 4 * 16 + b.toNat / 16), symbol (b.toNat % 16 * 4)]
  | a :: b :: c :: rest =>
    symbol (a.toNat / 4) :: symbol (a.toNat % 4 * 16 + b.toNat / 16) ::
      symbol (b.toNat % 16 * 4 + c.toNat / 64) :: symbol (c.toNat % 64) :: encode rest

def decode : List Char → Option (List UInt8)
  | [] => some []
  | [_] => none
  | [p, q] => do
    let x ← sextet p
    let y ← sextet q
    if y % 16 = 0 then some [.ofNat (x * 4 + y / 16)] else none
  | [p, q, r] => do
    let x ← sextet p
    let y ← sextet q
    let z ← sextet r
    if z % 4 = 0 then some [.ofNat (x * 4 + y / 16), .ofNat (y % 16 * 16 + z / 4)] else none
  | p :: q :: r :: s :: rest => do
    let x ← sextet p
    let y ← sextet q
    let z ← sextet r
    let w ← sextet s
    let bytes ← decode rest
    some (.ofNat (x * 4 + y / 16) :: .ofNat (y % 16 * 16 + z / 4) :: .ofNat (z % 4 * 64 + w) :: bytes)

theorem ofNat_toNat_eq {a : UInt8} {n : Nat} (h : n = a.toNat) : UInt8.ofNat n = a := by
  rw [h, UInt8.ofNat_toNat]

/-- **What was encoded is decoded.** -/
theorem decode_encode (bytes : List UInt8) : decode (encode bytes) = some bytes := by
  induction bytes using encode.induct with
  | case1 => rfl
  | case2 a =>
    have ha := a.toNat_lt
    simp only [encode, decode]
    rw [sextet_symbol _ (by omega), sextet_symbol _ (by omega)]
    dsimp only [Option.bind_eq_bind, Option.bind_some]
    rw [if_pos (by omega), ofNat_toNat_eq (by omega : _ = a.toNat)]
  | case3 a b =>
    have ha := a.toNat_lt
    have hb := b.toNat_lt
    simp only [encode, decode]
    rw [sextet_symbol _ (by omega), sextet_symbol _ (by omega), sextet_symbol _ (by omega)]
    dsimp only [Option.bind_eq_bind, Option.bind_some]
    rw [if_pos (by omega), ofNat_toNat_eq (by omega : _ = a.toNat),
      ofNat_toNat_eq (by omega : _ = b.toNat)]
  | case4 a b c rest ih =>
    have ha := a.toNat_lt
    have hb := b.toNat_lt
    have hc := c.toNat_lt
    simp only [encode, decode]
    rw [sextet_symbol _ (by omega), sextet_symbol _ (by omega), sextet_symbol _ (by omega),
      sextet_symbol _ (by omega), ih]
    dsimp only [Option.bind_eq_bind, Option.bind_some]
    rw [ofNat_toNat_eq (by omega : _ = a.toNat), ofNat_toNat_eq (by omega : _ = b.toNat),
      ofNat_toNat_eq (by omega : _ = c.toNat)]

end Base64Url
