import Mathlib.Data.String.Basic

/-!
# The order of UTF-8

Texts compare alike by their bytes and by their code points. A code that writes smaller letters as words
that fall below the words of greater ones keeps the lexicographic order, and UTF-8 is such a code.
-/

namespace Utf8

section Codes

variable {α κ : Type} [LinearOrder α] [LinearOrder κ]

/-- The words differ, and where they first do the left one has the smaller letter. -/
def Below (x y : List κ) : Prop := ∃ common u v x' y', x = common ++ u :: x' ∧ y = common ++ v :: y' ∧ u < v

theorem Below.head {u v : κ} (h : u < v) (x y : List κ) : Below (u :: x) (v :: y) :=
  ⟨[], u, v, x, y, rfl, rfl, h⟩

theorem Below.tail {x y : List κ} (h : Below x y) {u v : κ} (huv : u = v) :
    Below (u :: x) (v :: y) := by
  obtain ⟨common, u', v', x', y', rfl, rfl, hlt⟩ := h
  exact ⟨u :: common, u', v', x', y', rfl, by rw [huv]; rfl, hlt⟩

theorem append_lt_append_left {common x y : List κ} (h : x < y) : common ++ x < common ++ y := by
  induction common with
  | nil => exact h
  | cons u common ih => exact List.cons_lt_cons_iff.2 (.inr ⟨rfl, ih⟩)

theorem Below.append {x y : List κ} (h : Below x y) (s t : List κ) : x ++ s < y ++ t := by
  obtain ⟨common, u, v, x', y', rfl, rfl, huv⟩ := h
  rw [List.append_assoc, List.append_assoc]
  exact append_lt_append_left (List.cons_lt_cons_iff.2 (.inl huv))

theorem strictMono_flatMap {code : α → List κ} (hne : ∀ a, code a ≠ [])
    (hbelow : ∀ a b, a < b → Below (code a) (code b)) :
    StrictMono fun l : List α => l.flatMap code := by
  intro l m hlt
  induction l generalizing m with
  | nil =>
    cases m with
    | nil => exact absurd hlt (lt_irrefl _)
    | cons b m =>
      obtain ⟨u, word, hword⟩ := List.exists_cons_of_ne_nil (hne b)
      simp only [List.flatMap_nil, List.flatMap_cons, hword, List.cons_append]
      exact List.nil_lt_cons _ _
  | cons a l ih =>
    cases m with
    | nil => exact absurd hlt (by simp)
    | cons b m =>
      simp only [List.flatMap_cons]
      rcases List.cons_lt_cons_iff.1 hlt with hab | ⟨rfl, hrest⟩
      · exact (hbelow a b hab).append _ _
      · exact append_lt_append_left (ih hrest)

end Codes

def charBytes (c : Char) : List Nat := (String.utf8EncodeChar c).map UInt8.toNat

def textBytes (s : String) : List Nat := s.toByteArray.data.toList.map UInt8.toNat

theorem textBytes_eq (s : String) : textBytes s = s.toList.flatMap charBytes := by
  rw [textBytes, ← String.utf8Encode_toList, List.utf8Encode]
  simp only [List.data_toByteArray, List.map_flatMap]
  rfl

theorem charBytes_eq (c : Char) : charBytes c =
    if c.toNat ≤ 0x7f then [c.toNat]
    else if c.toNat ≤ 0x7ff then [c.toNat / 64 + 192, c.toNat % 64 + 128]
    else if c.toNat ≤ 0xffff then
      [c.toNat / 4096 + 224, c.toNat / 64 % 64 + 128, c.toNat % 64 + 128]
    else [c.toNat / 262144 + 240, c.toNat / 4096 % 64 + 128, c.toNat / 64 % 64 + 128, c.toNat % 64 + 128] := by
  have hmax : c.toNat < 0x110000 := by
    have hvalid := c.valid
    simp only [UInt32.isValidChar, Nat.isValidChar] at hvalid
    change c.val.toNat < _
    omega
  rw [charBytes, String.utf8EncodeChar]
  change List.map UInt8.toNat (if c.toNat ≤ 0x7f then _ else if c.toNat ≤ 0x7ff then _ else
    if c.toNat ≤ 0xffff then _ else _) = _
  split_ifs <;> simp <;> omega

theorem below_charBytes {c d : Char} (h : c < d) : Below (charBytes c) (charBytes d) := by
  have hlt : c.toNat < d.toNat := h
  have hmax : d.toNat < 0x110000 := by
    have hvalid := d.valid
    simp only [UInt32.isValidChar, Nat.isValidChar] at hvalid
    change d.val.toNat < _
    omega
  rw [charBytes_eq, charBytes_eq]
  generalize c.toNat = m at *
  generalize d.toNat = n at *
  -- characters of different lengths differ in the first byte
  split_ifs
  all_goals first
    | omega
    | exact .head (by omega) _ _
    | skip
  · rcases Nat.lt_or_ge (m / 64) (n / 64) with h₁ | h₁
    · exact .head (by omega) _ _
    · exact .tail (.head (by omega) _ _) (by omega)
  · rcases Nat.lt_or_ge (m / 4096) (n / 4096) with h₁ | h₁
    · exact .head (by omega) _ _
    · rcases Nat.lt_or_ge (m / 64) (n / 64) with h₂ | h₂
      · exact .tail (.head (by omega) _ _) (by omega)
      · exact .tail (.tail (.head (by omega) _ _) (by omega)) (by omega)
  · rcases Nat.lt_or_ge (m / 262144) (n / 262144) with h₁ | h₁
    · exact .head (by omega) _ _
    · rcases Nat.lt_or_ge (m / 4096) (n / 4096) with h₂ | h₂
      · exact .tail (.head (by omega) _ _) (by omega)
      · rcases Nat.lt_or_ge (m / 64) (n / 64) with h₃ | h₃
        · exact .tail (.tail (.head (by omega) _ _) (by omega)) (by omega)
        · exact .tail (.tail (.tail (.head (by omega) _ _) (by omega)) (by omega)) (by omega)

theorem textBytes_lt_iff {s t : String} : textBytes s < textBytes t ↔ s < t := by
  rw [textBytes_eq, textBytes_eq, String.lt_iff_toList_lt]
  exact (strictMono_flatMap (fun c => by rw [charBytes_eq]; split_ifs <;> simp)
    fun _ _ => below_charBytes).lt_iff_lt

end Utf8
