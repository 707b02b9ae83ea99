import Mathlib.Data.List.Basic

/-!
# Query strings

What a server reads of the part of a URL between `?` and `#`. A plus is a blank there,
and a percent sign starts a byte.
-/

namespace QueryString

/-! ## Bytes of a text -/

/-- `text.encode("utf-8")` -/
def utf8 (chars : List Char) : List UInt8 := chars.flatMap String.utf8EncodeChar

/-- `bytes.decode("utf-8")`, none where the bytes are not UTF-8. -/
def ofUtf8 (bytes : List UInt8) : Option String := String.fromUTF8? bytes.toByteArray

theorem ofUtf8_utf8 (text : String) : ofUtf8 (utf8 text.toList) = some text := by
  have hbytes : (utf8 text.toList).toByteArray = text.toByteArray := String.utf8Encode_toList
  rw [ofUtf8, hbytes, String.fromUTF8?, dif_pos text.isValidUTF8]
  rfl

theorem mem_utf8 {chars : List Char} {b : UInt8} (h : ∀ c ∈ chars, c.toNat < 128)
    (hb : b ∈ utf8 chars) : ∃ c ∈ chars, b.toNat = c.toNat := by
  obtain ⟨c, hc, hbyte⟩ := List.mem_flatMap.mp hb
  have hcode : c.val.toNat < 128 := h c hc
  have hsize : c.utf8Size = 1 :=
    Char.utf8Size_eq_one_iff.mpr (UInt32.le_iff_toNat_le.mpr (Nat.le_of_lt_succ hcode))
  rw [String.utf8EncodeChar_eq_singleton hsize, List.mem_singleton] at hbyte
  refine ⟨c, hc, ?_⟩
  rw [hbyte, UInt32.toNat_toUInt8, Nat.mod_eq_of_lt (by omega)]
  rfl

/-! ## Reading a query -/

def hexValue? (c : Char) : Option Nat := "0123456789abcdef".toList.idxOf? c.toLower

/-- The bytes of a part of a query: `unquote` of a text whose pluses are blanks. -/
def unquotePlus : List Char → List UInt8
  | [] => []
  | '+' :: rest => 32 :: unquotePlus rest
  | '%' :: a :: b :: rest =>
    match hexValue? a, hexValue? b with
    | some x, some y => UInt8.ofNat (16 * x + y) :: unquotePlus rest
    | _, _ => 37 :: unquotePlus (a :: b :: rest)
  | c :: rest => String.utf8EncodeChar c ++ unquotePlus rest

def split (sep : Char) : List Char → List (List Char)
  | [] => [[]]
  | c :: rest =>
    if c = sep then [] :: split sep rest
    else match split sep rest with
      | piece :: pieces => (c :: piece) :: pieces
      | [] => [[c]]

/-- The name and the value of one part of a query. -/
def argument (piece : List Char) : Option String × Option String :=
  (ofUtf8 (unquotePlus (piece.takeWhile (· ≠ '='))),
    ofUtf8 (unquotePlus ((piece.dropWhile (· ≠ '=')).drop 1)))

/-- The part of a URL after `?` and before `#`. -/
def queryOf (url : List Char) : List Char :=
  ((url.takeWhile (· ≠ '#')).dropWhile (· ≠ '?')).drop 1

/-- The first value that a URL gives for a name. -/
def arg? (url : List Char) (name : String) : Option String :=
  (((split '&' (queryOf url)).map argument).find? fun (key, _) => key = some name).bind (·.2)

theorem unquotePlus_plain {chars : List Char} (h : ∀ c ∈ chars, c ≠ '+' ∧ c ≠ '%') :
    unquotePlus chars = utf8 chars := by
  induction chars with
  | nil => rfl
  | cons c rest ih =>
    obtain ⟨hplus, hpercent⟩ := h c (by simp)
    rw [unquotePlus, ih fun d hd => h d (by simp [hd])]
    · rfl
    all_goals simp_all

theorem split_append {sep : Char} {piece rest : List Char} (h : sep ∉ piece) :
    split sep (piece ++ sep :: rest) = piece :: split sep rest := by
  induction piece with
  | nil => simp [split]
  | cons c piece ih =>
    simp only [List.mem_cons, not_or] at h
    rw [List.cons_append, split, if_neg (Ne.symm h.1), ih h.2]

theorem takeWhile_append (rest : List Char) {p : Char → Bool} {front : List Char} {c : Char}
    (h : ∀ d ∈ front, p d = true) (hc : p c = false) :
    (front ++ c :: rest).takeWhile p = front ∧ (front ++ c :: rest).dropWhile p = c :: rest := by
  constructor
  · rw [List.takeWhile_append_of_pos h, List.takeWhile_cons_of_neg (by simp [hc]), List.append_nil]
  · rw [List.dropWhile_append_of_pos h, List.dropWhile_cons_of_neg (by simp [hc])]

theorem argument_plain {name value : List Char} (hname : ∀ c ∈ name, c ≠ '=' ∧ c ≠ '+' ∧ c ≠ '%')
    (hvalue : ∀ c ∈ value, c ≠ '+' ∧ c ≠ '%') :
    argument (name ++ '=' :: value) = (some (String.ofList name), some (String.ofList value)) := by
  obtain ⟨htake, hdrop⟩ := takeWhile_append value (p := (· ≠ '=')) (c := '=')
    (fun d hd => by simp [hname d hd]) (by simp)
  have hread : ∀ chars : List Char, (∀ c ∈ chars, c ≠ '+' ∧ c ≠ '%') →
      ofUtf8 (unquotePlus chars) = some (String.ofList chars) := by
    intro chars hchars
    have htext := ofUtf8_utf8 (String.ofList chars)
    rwa [String.toList_ofList, ← unquotePlus_plain hchars] at htext
  rw [argument, htake, hdrop, List.drop_one, List.tail_cons, hread value hvalue,
    hread name fun c hc => (hname c hc).2]

end QueryString
