import Mathlib.Data.List.Basic

/-!
# Base64

Six bits a symbol. The last two symbols of the alphabet are the ones that a URL has
another use for, and text in ASCII needs them only where the third byte of a group is
one of four.
-/

namespace Base64

def alphabet : List Char :=
  "ABCDEFGHIJKLMNOPQRSTUVWXYZabcdefghijklmnopqrstuvwxyz0123456789+/".toList

def symbol (n : Nat) : Char := alphabet.getD n '='

def value? (c : Char) : Option Nat := alphabet.idxOf? c

def encode : List UInt8 → List Char
  | a :: b :: c :: rest =>
    symbol (a.toNat / 4) :: symbol (a.toNat % 4 * 16 + b.toNat / 16) ::
      symbol (b.toNat % 16 * 4 + c.toNat / 64) :: symbol (c.toNat % 64) :: encode rest
  | [a, b] =>
    [symbol (a.toNat / 4), symbol (a.toNat % 4 * 16 + b.toNat / 16), symbol (b.toNat % 16 * 4), '=']
  | [a] => [symbol (a.toNat / 4), symbol (a.toNat % 4 * 16), '=', '=']
  | [] => []

/-- Of a text in groups of four. None for any other. -/
def decode : List Char → Option (List UInt8)
  | [] => some []
  | [a, b, '=', '='] => do
    let x ← value? a
    let y ← value? b
    return [UInt8.ofNat (x * 4 + y / 16)]
  | [a, b, c, '='] => do
    let x ← value? a
    let y ← value? b
    let z ← value? c
    return [UInt8.ofNat (x * 4 + y / 16), UInt8.ofNat (y % 16 * 16 + z / 4)]
  | a :: b :: c :: d :: rest => do
    let x ← value? a
    let y ← value? b
    let z ← value? c
    let w ← value? d
    let bytes ← decode rest
    return UInt8.ofNat (x * 4 + y / 16) :: UInt8.ofNat (y % 16 * 16 + z / 4) ::
      UInt8.ofNat (z % 4 * 64 + w) :: bytes
  | _ => none

/-! ## Round trip -/

theorem value?_symbol : ∀ n < 64, value? (symbol n) = some n := by decide +kernel

theorem symbol_ne_pad : ∀ n < 64, symbol n ≠ '=' := by decide +kernel

theorem byte_eq {a : UInt8} {n : Nat} (h : n = a.toNat) : UInt8.ofNat n = a := by
  rw [h, UInt8.ofNat_toNat]

theorem decode_group {a b c d : Char} {rest : List Char} {x y z w : Nat} (hd : d ≠ '=')
    (ha : value? a = some x) (hb : value? b = some y) (hc : value? c = some z)
    (hw : value? d = some w) :
    decode (a :: b :: c :: d :: rest) = (decode rest).map fun bytes =>
      UInt8.ofNat (x * 4 + y / 16) :: UInt8.ofNat (y % 16 * 16 + z / 4) ::
        UInt8.ofNat (z % 4 * 64 + w) :: bytes := by
  rw [decode]
  · simp only [ha, hb, hc, hw]
    cases decode rest <;> rfl
  all_goals simp_all

theorem decode_two {a b c : Char} {x y z : Nat} (hc : c ≠ '=') (ha : value? a = some x)
    (hb : value? b = some y) (hz : value? c = some z) :
    decode [a, b, c, '='] =
      some [UInt8.ofNat (x * 4 + y / 16), UInt8.ofNat (y % 16 * 16 + z / 4)] := by
  rw [decode]
  · simp only [ha, hb, hz]
    rfl
  · simp_all

theorem decode_one {a b : Char} {x y : Nat} (ha : value? a = some x) (hb : value? b = some y) :
    decode [a, b, '=', '='] = some [UInt8.ofNat (x * 4 + y / 16)] := by
  rw [decode]
  simp only [ha, hb]
  rfl

theorem decode_encode (bytes : List UInt8) : decode (encode bytes) = some bytes := by
  induction bytes using encode.induct with
  | case1 a b c rest ih =>
    have ha := a.toNat_lt
    have hb := b.toNat_lt
    have hc := c.toNat_lt
    rw [encode, decode_group (symbol_ne_pad _ (by omega)) (value?_symbol _ (by omega))
      (value?_symbol _ (by omega)) (value?_symbol _ (by omega)) (value?_symbol _ (by omega)), ih]
    rw [Option.map_some, byte_eq (a := a) (by omega), byte_eq (a := b) (by omega),
      byte_eq (a := c) (by omega)]
  | case2 a b =>
    have ha := a.toNat_lt
    have hb := b.toNat_lt
    rw [encode, decode_two (symbol_ne_pad _ (by omega)) (value?_symbol _ (by omega))
      (value?_symbol _ (by omega)) (value?_symbol _ (by omega)), byte_eq (a := a) (by omega),
      byte_eq (a := b) (by omega)]
  | case3 a =>
    have ha := a.toNat_lt
    rw [encode, decode_one (value?_symbol _ (by omega)) (value?_symbol _ (by omega)),
      byte_eq (a := a) (by omega)]
  | case4 => rfl

/-! ## The symbols of a text -/

/-- The bytes that the last two symbols may stand for at the end of a group. -/
def Marked (b : UInt8) : Prop := b.toNat % 64 = 62 ∨ b.toNat % 64 = 63

theorem encode_plain {bytes : List UInt8} (h : ∀ b ∈ bytes, b.toNat < 128 ∧ ¬ Marked b) {ch : Char}
    (hch : ch ∈ encode bytes) : ch = '=' ∨ ∃ n < 62, ch = symbol n := by
  induction bytes using encode.induct with
  | case1 a b c rest ih =>
    obtain ⟨ha, -⟩ := h a (by simp)
    obtain ⟨hb, -⟩ := h b (by simp)
    obtain ⟨hc, hmarked⟩ := h c (by simp)
    unfold Marked at hmarked
    simp only [encode, List.mem_cons] at hch
    rcases hch with rfl | rfl | rfl | rfl | hch
    · exact .inr ⟨_, by omega, rfl⟩
    · exact .inr ⟨_, by omega, rfl⟩
    · exact .inr ⟨_, by omega, rfl⟩
    · exact .inr ⟨_, by omega, rfl⟩
    · exact ih (fun d hd => h d (by simp [hd])) hch
  | case2 a b =>
    obtain ⟨ha, -⟩ := h a (by simp)
    obtain ⟨hb, -⟩ := h b (by simp)
    simp only [encode, List.mem_cons, List.not_mem_nil, or_false] at hch
    rcases hch with rfl | rfl | rfl | rfl
    · exact .inr ⟨_, by omega, rfl⟩
    · exact .inr ⟨_, by omega, rfl⟩
    · exact .inr ⟨_, by omega, rfl⟩
    · exact .inl rfl
  | case3 a =>
    obtain ⟨ha, -⟩ := h a (by simp)
    simp only [encode, List.mem_cons, List.not_mem_nil, or_false, or_self] at hch
    rcases hch with rfl | rfl | rfl
    · exact .inr ⟨_, by omega, rfl⟩
    · exact .inr ⟨_, by omega, rfl⟩
    · exact .inl rfl
  | case4 => simp [encode] at hch

theorem symbol_alphanum : ∀ n < 62, (symbol n).isAlphanum := by decide +kernel

theorem encode_alphanum {bytes : List UInt8} (h : ∀ b ∈ bytes, b.toNat < 128 ∧ ¬ Marked b) {ch : Char}
    (hch : ch ∈ encode bytes) : ch = '=' ∨ ch.isAlphanum := by
  rcases encode_plain h hch with rfl | ⟨n, hn, rfl⟩
  · exact .inl rfl
  · exact .inr (symbol_alphanum n hn)

end Base64
