/-
Tokens: numbers and strings are read back from their text.

A number ends where no digit, point or exponent follows (`Stops`), so it is read back from the front of a longer text
(`numeral?_chars`). A string ends at its own quote: every character that could be taken for something else is escaped,
and no escape of the writer is half of a surrogate pair (`string?_quoted`).
-/
import Mathlib.Tactic
import Errand.Json.Reader
import Errand.Json.Writer

namespace Errand.Json.Reader

/-! ## Numbers -/

/-- nothing follows that could go on with a number -/
def Stops (rest : List Char) : Prop := ∀ c ∈ rest.head?, isDigit c = false ∧ c ≠ '.' ∧ c ≠ 'e' ∧ c ≠ 'E'

theorem stops_nil : Stops [] := by simp [Stops]

theorem isDigit_eq (c : Char) : isDigit c = c.isDigit := by
  simp [isDigit, Char.isDigit, Char.le_def]

theorem isDigit_of_mem_toDigits {n : Nat} {c : Char} (h : c ∈ Nat.toDigits 10 n) : isDigit c = true := by
  rw [isDigit_eq]
  exact Nat.isDigit_of_mem_toDigits (by decide) (by decide) h

/-- only zero begins with a zero -/
theorem head?_toDigits {n : Nat} (h : 0 < n) : (Nat.toDigits 10 n).head? ≠ some '0' := by
  induction n using Nat.strongRecOn with
  | ind n ih =>
    rw [Nat.toDigits_eq_if (by decide)]
    split
    · simp [Nat.pos_iff_ne_zero.1 h]
    · have hlast := ih (n / 10) (by omega) (by omega)
      rwa [List.head?_append_of_ne_nil _ Nat.toDigits_ne_nil]

theorem natOf_toDigits (n : Nat) : natOf (Nat.toDigits 10 n) = n := by
  have h : Nat.ofDigitChars 10 (Nat.toDigits 10 n) 0 = n := Nat.ofDigitChars_ten_toDigits
  rwa [Nat.ofDigitChars_eq_foldl] at h

/-- a run of digits ends where no digit follows -/
theorem digits?_append {ds rest : List Char} (hne : ds ≠ []) (hd : ∀ c ∈ ds, isDigit c = true) (hr : Stops rest) :
    digits? (ds ++ rest) = some (ds, rest) := by
  have hrest : rest.takeWhile isDigit = [] ∧ rest.dropWhile isDigit = rest := by
    cases rest with
    | nil => exact ⟨rfl, rfl⟩
    | cons c rest =>
      have hc := (hr c rfl).1
      simp [hc]
  have hspan : (ds ++ rest).span isDigit = (ds, rest) := by
    rw [List.span_eq_takeWhile_dropWhile, List.takeWhile_append_of_pos hd, List.dropWhile_append_of_pos hd, hrest.1,
      hrest.2, List.append_nil]
  unfold digits?
  rw [hspan]
  obtain ⟨c, ds, rfl⟩ := List.exists_cons_of_ne_nil hne
  rfl

theorem whole?_toDigits (n : Nat) {rest : List Char} (hr : Stops rest) :
    whole? (Nat.toDigits 10 n ++ rest) = some (Nat.toDigits 10 n, rest) := by
  rcases Nat.eq_zero_or_pos n with rfl | hn
  · have hhead : rest.head?.any isDigit = false := by
      cases rest with
      | nil => rfl
      | cons c rest => simpa using (hr c rfl).1
    simp [Nat.toDigits_zero, whole?, hhead]
  · have hhead := head?_toDigits hn
    have hdigits := digits?_append Nat.toDigits_ne_nil (fun c => isDigit_of_mem_toDigits (n := n)) hr
    rw [← hdigits]
    unfold whole?
    split
    · rename_i tail he
      obtain ⟨c, ds, hds⟩ := List.exists_cons_of_ne_nil (Nat.toDigits_ne_nil (n := n) (b := 10))
      rw [hds, List.cons_append] at he
      rw [hds] at hhead
      exact absurd (congrArg some (List.cons.inj he).1) hhead
    · rfl

theorem fraction?_of_stops {rest : List Char} (hr : Stops rest) : fraction? rest = some ([], rest) := by
  unfold fraction?
  split
  · exact absurd rfl (hr _ rfl).2.1
  · rfl

theorem exponent?_of_stops {rest : List Char} (hr : Stops rest) : exponent? rest = some (none, rest) := by
  unfold exponent?
  split
  all_goals first
    | rfl
    | exact absurd rfl (hr _ rfl).2.2.1
    | exact absurd rfl (hr _ rfl).2.2.2

theorem exists_toDigits (n : Nat) : ∃ c ds, Nat.toDigits 10 n = c :: ds ∧ isDigit c = true := by
  obtain ⟨c, ds, hds⟩ := List.exists_cons_of_ne_nil (Nat.toDigits_ne_nil (n := n) (b := 10))
  exact ⟨c, ds, hds, isDigit_of_mem_toDigits (n := n) (by simp [hds])⟩

/-- the text of an integer is a sign, if it is below zero, and digits -/
theorem toList_toString_int (n : Int) :
    (toString n).toList = (if n < 0 then ['-'] else []) ++ Nat.toDigits 10 n.natAbs := by
  cases n with
  | ofNat m =>
    have hrepr : toString (Int.ofNat m) = m.repr := rfl
    rw [hrepr, Nat.toList_repr]
    simp
  | negSucc m =>
    have hrepr : toString (Int.negSucc m) = "-" ++ (m + 1).repr := by simp [Int.toString_eq_repr, Int.repr]
    rw [hrepr, String.toList_append, Nat.toList_repr]
    simp [Int.negSucc_lt_zero]

/-- digits by themselves, after the sign has been looked for -/
theorem numeral?_toDigits (n : Nat) {rest : List Char} (hr : Stops rest) :
    numeral? (Nat.toDigits 10 n ++ rest) = some ({ negative := false, whole := Nat.toDigits 10 n }, rest) := by
  obtain ⟨c, ds, hds, hc⟩ := exists_toDigits n
  have hunsigned : ∀ tail, Nat.toDigits 10 n ++ rest ≠ '-' :: tail := by
    intro tail he
    rw [hds, List.cons_append] at he
    rw [(List.cons.inj he).1] at hc
    exact absurd hc (by decide)
  unfold numeral?
  split
  rename_i negative cs he
  split at he
  · rename_i tail hsigned
    exact absurd hsigned (hunsigned tail)
  · obtain ⟨rfl, rfl⟩ := Prod.mk.inj he
    simp only [Option.bind_eq_bind, Option.bind_some, whole?_toDigits n hr, fraction?_of_stops hr,
      exponent?_of_stops hr]
    rfl

theorem numeral?_chars (n : Int) {rest : List Char} (hr : Stops rest) :
    numeral? ((toString n).toList ++ rest) =
      some ({ negative := decide (n < 0), whole := Nat.toDigits 10 n.natAbs }, rest) := by
  rw [toList_toString_int]
  by_cases hn : n < 0
  · simp only [numeral?, hn, if_true, List.cons_append, List.nil_append, decide_true, Option.bind_eq_bind,
      Option.bind_some, whole?_toDigits _ hr, fraction?_of_stops hr, exponent?_of_stops hr]
    rfl
  · simp only [hn, if_false, List.nil_append, decide_false, numeral?_toDigits _ hr]

/-- **A 64-bit integer is read back** from its digits -/
theorem value_numeral {n : Int} (hl : -2 ^ 63 ≤ n) (hu : n < 2 ^ 64) :
    Numeral.value { negative := decide (n < 0), whole := Nat.toDigits 10 n.natAbs } = .int n := by
  have hsize : UInt64.size = 2 ^ 64 := rfl
  have hfits : ¬ n.natAbs ≥ UInt64.size := by omega
  unfold Numeral.value
  simp only [natOf_toDigits]
  by_cases hn : n < 0
  · have hzero : ¬ n.natAbs = 0 := by omega
    have hmin : ¬ n.natAbs > 9223372036854775808 := by omega
    simp [hfits, hn, hzero, hmin, abs_of_neg hn]
  · simp [hfits, hn]
    omega

/-! ## Strings -/

/-- the piece that a character is read back as -/
def piece (c : Char) : Piece :=
  if (escapeLetter? c).isNone && decide (c.toNat < 32) then .unit c.toNat else .char c

/-- the two digits to base sixteen of a control character -/
theorem number?_control : ∀ n < 32, Text.number? 16 ['0', '0', hexDigit (n / 16), hexDigit (n % 16)] = some n := by
  decide

theorem pieces?_plain {c : Char} (hquote : c ≠ '"') (hslash : c ≠ '\\') (hc : ¬ c.toNat < 32) (rest : List Char) :
    pieces? (c :: rest) = (pieces? rest).map fun r => (.char c :: r.1, r.2) := by
  have hkept : (decide (c.toNat < 32) || decide (c = '\\')) = false := by simp [hslash, hc]
  rw [pieces?.eq_def]
  split
  · rename_i he
    cases he
  · rename_i tail he
    exact absurd (List.cons.inj he).1 hquote
  · rename_i he
    exact absurd (List.cons.inj he).1 hslash
  · rename_i he
    exact absurd (List.cons.inj he).1 hslash
  · rename_i he
    obtain ⟨rfl, rfl⟩ := List.cons.inj he
    rw [hkept]
    cases pieces? rest <;> rfl

theorem pieces?_control {n : Nat} (hn : n < 32) (rest : List Char) :
    pieces? ('\\' :: 'u' :: '0' :: '0' :: hexDigit (n / 16) :: hexDigit (n % 16) :: rest) =
      (pieces? rest).map fun r => (.unit n :: r.1, r.2) := by
  rw [pieces?.eq_def]
  simp only [number?_control n hn]
  cases pieces? rest <;> rfl

theorem pieces?_letter {c letter : Char} (h : escapeLetter? c = some letter) (rest : List Char) :
    pieces? ('\\' :: letter :: rest) = (pieces? rest).map fun r => (.char c :: r.1, r.2) := by
  rw [pieces?.eq_def]
  unfold escapeLetter? at h
  split at h
  all_goals cases h
  all_goals
    simp [shortEscape?]
    cases pieces? rest <;> rfl

/-- **Each character is read back as one piece**, by itself or from its escape -/
theorem pieces?_escape (c : Char) (rest : List Char) :
    pieces? (escape c ++ rest) = (pieces? rest).map fun r => (piece c :: r.1, r.2) := by
  unfold escape piece
  cases hletter : escapeLetter? c with
  | some letter => exact pieces?_letter hletter rest
  | none =>
    by_cases hc : c.toNat < 32
    · simp only [hc, if_true, Option.isNone_none, decide_true, Bool.and_self]
      exact pieces?_control hc rest
    · have hquote : c ≠ '"' := by
        rintro rfl
        cases hletter
      have hslash : c ≠ '\\' := by
        rintro rfl
        cases hletter
      simp only [hc, if_false, decide_false, Bool.and_false, Bool.false_eq_true]
      exact pieces?_plain hquote hslash hc rest

theorem pieces?_chars (cs rest : List Char) :
    pieces? (cs.flatMap escape ++ '"' :: rest) = some (cs.map piece, rest) := by
  induction cs with
  | nil => rfl
  | cons c cs ih =>
    rw [List.flatMap_cons, List.append_assoc, pieces?_escape, ih]
    rfl

/-- a control character is no half of a surrogate pair, so the pieces are joined one by one -/
theorem joined?_piece (c : Char) (ps : List Piece) : joined? (piece c :: ps) = (joined? ps).map (c :: ·) := by
  unfold piece
  split
  · rename_i h
    have hlt : c.toNat < 32 := of_decide_eq_true (Bool.and_eq_true_iff.1 h).2
    have hhigh : ¬ (0xD800 ≤ c.toNat ∧ c.toNat < 0xDC00) := by omega
    have hlow : ¬ (0xDC00 ≤ c.toNat ∧ c.toNat < 0xE000) := by omega
    have hhalf : ¬ (0xD800 ≤ c.toNat ∧ c.toNat < 0xE000) := by omega
    conv_lhs => rw [joined?.eq_def]
    rcases ps with _ | ⟨_ | _, ps⟩
    · simp only [hhalf, if_false, Char.ofNat_toNat]
    · simp only [hhalf, if_false, Char.ofNat_toNat]
    · simp only [hhigh, hlow, if_false, Char.ofNat_toNat]
  · rfl

theorem joined?_pieces (cs : List Char) : joined? (cs.map piece) = some cs := by
  induction cs with
  | nil => rfl
  | cons c cs ih => rw [List.map_cons, joined?_piece, ih, Option.map_some]

/-- **A string is read back**, whatever follows its quote -/
theorem string?_quoted (s : String) (rest : List Char) :
    string? (s.toList.flatMap escape ++ '"' :: rest) = some (some s, rest) := by
  unfold string?
  rw [pieces?_chars]
  change some ((joined? (s.toList.map piece)).map String.ofList, rest) = _
  rw [joined?_pieces, Option.map_some, String.ofList_toList]

end Errand.Json.Reader
