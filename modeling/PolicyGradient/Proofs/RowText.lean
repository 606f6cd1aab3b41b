import Mathlib.Data.List.TakeWhile
import PolicyGradient.Proofs.Rows

/-!
The text of a row.

A table writes a row in pieces.  Together they are the columns of the step, with commas in between
and a line break behind them (`Table.row_eq`).
-/

namespace PolicyGradient

open Decimal (Shown fixed)

variable {α ρ : Type}

namespace Table

/-- A number without its sign: if it has a point, there are digits behind it, and if it has none, it
is not zero. -/
inductive Unsigned : List Char → Prop
  | pointed {whole places : List Char} (hwhole : '.' ∉ whole) (hplaces : places ≠ []) :
      Unsigned (whole ++ '.' :: places)
  | whole {text : List Char} (hpoint : '.' ∉ text) (hzero : text ≠ ['0']) : Unsigned text

theorem forall_ne_point {text : List Char} (h : '.' ∉ text) : ∀ c ∈ text, (c != '.') = true := by
  intro c hc
  rw [bne_iff_ne]
  rintro rfl
  exact h hc

theorem flatten_unsignedPieces {text : List Char} (h : Unsigned text) :
    (unsignedPieces text).flatten = text := by
  cases h with
  | @pointed whole places hwhole hplaces =>
      have hkept := forall_ne_point hwhole
      have hbefore : (whole ++ '.' :: places).takeWhile (· != '.') = whole := by
        rw [List.takeWhile_append_of_pos hkept, List.takeWhile_cons_of_neg (by decide),
          List.append_nil]
      have hbehind : ((whole ++ '.' :: places).dropWhile (· != '.')).drop 1 = places := by
        rw [List.dropWhile_append_of_pos hkept, List.dropWhile_cons_of_neg (by decide),
          List.drop_one, List.tail_cons]
      rw [unsignedPieces, hbefore, hbehind]
      split
      · simp
      · simp [hplaces]
  | whole hpoint hzero =>
      have hkept := forall_ne_point hpoint
      have hbefore : text.takeWhile (· != '.') = text := List.takeWhile_eq_self_iff.mpr hkept
      have hbehind : text.dropWhile (· != '.') = [] := List.dropWhile_eq_nil_iff.mpr hkept
      rw [unsignedPieces, hbefore, hbehind]
      split
      · exact absurd rfl hzero
      · simp

theorem join_map_ofList (pieces : List (List Char)) :
    String.join (pieces.map String.ofList) = String.ofList pieces.flatten := by
  induction pieces with
  | nil => rfl
  | cons piece pieces ih =>
      rw [List.map_cons, String.join_cons, ih, List.flatten_cons, String.ofList_append]

/-- The pieces of a number are the number. -/
theorem join_decimalPieces {text : List Char} (negative : Bool) (h : Unsigned text)
    (hsign : text.head? ≠ some '-') :
    String.join (decimalPieces (Decimal.sign negative ++ String.ofList text)) =
      Decimal.sign negative ++ String.ofList text := by
  have hpieces := flatten_unsignedPieces h
  cases negative with
  | true =>
      have hlist : (Decimal.sign true ++ String.ofList text).toList = '-' :: text := by
        rw [String.toList_append, String.toList_ofList]
        rfl
      rw [decimalPieces, hlist, join_map_ofList]
      show String.ofList (['-'] :: unsignedPieces text).flatten = _
      rw [List.flatten_cons, hpieces, String.ofList_append]
      rfl
  | false =>
      have hlist : (Decimal.sign false ++ String.ofList text).toList = text := by
        rw [String.toList_append, String.toList_ofList]
        rfl
      have hpart : decimalPieces (Decimal.sign false ++ String.ofList text) =
          (unsignedPieces text).map String.ofList := by
        rw [decimalPieces, hlist]
        split
        · exact absurd rfl hsign
        · rfl
      rw [hpart, join_map_ofList, hpieces]
      exact (String.empty_append).symm

theorem not_mem_digits {c : Char} (hc : c.isDigit = false) (n : Nat) : c ∉ Decimal.digits n := by
  intro hmem
  have hdigit := Nat.isDigit_of_mem_toDigits (by decide) (by decide) hmem
  rw [hc] at hdigit
  cases hdigit

/-- A number in positional notation has digits on both sides of its point. -/
theorem exists_of_positional {places : Nat} (hplaces : 0 < places) (n : Nat) :
    ∃ text, Decimal.positional places n = String.ofList text ∧ Unsigned text ∧
      text.head? ≠ some '-' := by
  have hwhole : Decimal.digits (n / Nat.pow 10 places) ≠ [] := Nat.toDigits_ne_nil
  have hpadded : Decimal.padded places (n % Nat.pow 10 places) ≠ [] := by
    intro hnil
    exact Nat.toDigits_ne_nil (List.append_eq_nil_iff.mp hnil).2
  refine ⟨_, ?_, .pointed (not_mem_digits (by decide) (n / Nat.pow 10 places)) hpadded, ?_⟩
  · rw [Decimal.positional, if_neg (Nat.ne_of_gt hplaces), ← List.singleton_append,
      String.ofList_append, String.ofList_append, ← String.append_assoc]
  · rw [List.head?_append_of_ne_nil _ hwhole]
    intro hhead
    exact not_mem_digits (by decide) _ (List.mem_of_mem_head? hhead)

/-- A number with places behind its point is its pieces. -/
theorem join_decimalPieces_fixed [Shown α] {places : Nat} (hplaces : 0 < places) (x : α) :
    String.join (decimalPieces (fixed places x)) = fixed places x := by
  rw [fixed]
  cases Shown.exact x with
  | nan =>
      have hnan : Decimal.Exact.nan.fixed places =
          Decimal.sign false ++ String.ofList ['N', 'a', 'N'] := rfl
      rw [hnan]
      exact join_decimalPieces false (.whole (by decide) (by decide)) (by decide)
  | infinite negative =>
      have hinfinite : (Decimal.Exact.infinite negative).fixed places =
          Decimal.sign negative ++ String.ofList ['i', 'n', 'f'] := rfl
      rw [hinfinite]
      exact join_decimalPieces negative (.whole (by decide) (by decide)) (by decide)
  | finite negative mantissa exponent =>
      rw [Decimal.Exact.fixed]
      obtain ⟨text, htext, hunsigned, hsign⟩ := exists_of_positional hplaces
        (Decimal.roundDiv ((Decimal.quotient mantissa exponent).1 * Nat.pow 10 places)
          (Decimal.quotient mantissa exponent).2)
      dsimp only
      rw [htext]
      exact join_decimalPieces negative hunsigned hsign

/-- The columns of a step. -/
def columns [Shown α] [Shown ρ] (record : StepRecord α ρ) : List String :=
  [record.learner, toString record.epoch, toString record.step, fixed 6 record.loss,
    fixed 8 record.lr, "0.00"]

/-- A row has the columns of its step, with commas in between. -/
theorem row_eq [Shown α] [Shown ρ] (record : StepRecord α ρ) :
    row record = ",".intercalate (columns record) ++ "\n" := by
  have hloss := join_decimalPieces_fixed (show 0 < 6 by decide) record.loss
  have hlr := join_decimalPieces_fixed (show 0 < 8 by decide) record.lr
  have hseconds : String.join (decimalPieces "0.00") = "0.00" := by decide
  simp only [row, rowPieces, columns, List.intercalate_cons_cons, List.intercalate_singleton,
    String.intercalate_cons_cons, String.intercalate_singleton, String.join_append,
    String.join_cons, String.join_nil, hloss, hlr, hseconds, String.append_assoc,
    String.append_empty]

end Table

end PolicyGradient
