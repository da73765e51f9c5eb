/-
Text: a plain value is read back from its text, and what is read is no deeper than there was room.

A value is plain when its text stands for nothing else: its integers fit 64 bits, and it holds neither reals nor flaws.
The text of each value is read back from the front of whatever follows (`value?_chars`), by induction on the value; the
items and members that are still to come have lemmas of their own, since the writer puts their commas in front. Twice
the length of the text is fuel enough. In the other direction `shallow` bounds the depth of all that is read, by
induction on the fuel, for the six readers together.
-/
import Errand.Proofs.Json.Tokens

namespace Errand.Json

/-! ## Depth -/

mutual

/-- how deep the containers of a value are nested -/
def depth : Json → Nat
  | .arr items => depthItems items + 1
  | .obj members => depthMembers members + 1
  | .null | .bool _ | .int _ | .real .. | .str _ | .flawed => 0

def depthItems : List Json → Nat
  | [] => 0
  | j :: rest => max j.depth (depthItems rest)

def depthMembers : List (String × Json) → Nat
  | [] => 0
  | (_, j) :: rest => max j.depth (depthMembers rest)

end

theorem depthItems_le {items : List Json} {n : Nat} : depthItems items ≤ n ↔ ∀ j ∈ items, j.depth ≤ n := by
  induction items with
  | nil => simp [depthItems]
  | cons j rest ih => simp [depthItems, ih]

theorem depthMembers_le {members : List (String × Json)} {n : Nat} :
    depthMembers members ≤ n ↔ ∀ m ∈ members, m.2.depth ≤ n := by
  induction members with
  | nil => simp [depthMembers]
  | cons m rest ih =>
    obtain ⟨k, j⟩ := m
    simp only [depthMembers, Nat.max_le, ih, List.mem_cons, forall_eq_or_imp]

theorem depth_arr_le {items : List Json} {n : Nat} : (arr items).depth ≤ n + 1 ↔ ∀ j ∈ items, j.depth ≤ n := by
  rw [depth, Nat.add_le_add_iff_right, depthItems_le]

theorem depth_obj_le {members : List (String × Json)} {n : Nat} :
    (obj members).depth ≤ n + 1 ↔ ∀ m ∈ members, m.2.depth ≤ n := by
  rw [depth, Nat.add_le_add_iff_right, depthMembers_le]

/-! ## Plain values -/

/-- a value that its text stands for: integers fit 64 bits, and there are neither reals nor flaws -/
inductive Plain : Json → Prop
  | null : Plain .null
  | bool (b : Bool) : Plain (.bool b)
  | int {n : Int} (hl : -2 ^ 63 ≤ n) (hu : n < 2 ^ 64) : Plain (.int n)
  | str (s : String) : Plain (.str s)
  | arr {items : List Json} (h : ∀ j ∈ items, Plain j) : Plain (.arr items)
  | obj {members : List (String × Json)} (h : ∀ m ∈ members, Plain m.2) : Plain (.obj members)

theorem soundItems_eq (items : List Json) : soundItems items = items.all isSound := by
  induction items with
  | nil => rfl
  | cons j rest ih => simp [soundItems, ih]

theorem soundMembers_eq (members : List (String × Json)) : soundMembers members = members.all (·.2.isSound) := by
  induction members with
  | nil => rfl
  | cons m rest ih => simp [soundMembers, ih]

theorem Plain.isSound {j : Json} (h : Plain j) : j.isSound = true := by
  induction h with
  | null | bool | int | str => rfl
  | arr h ih =>
    rw [Json.isSound, soundItems_eq, List.all_eq_true]
    exact ih
  | obj h ih =>
    rw [Json.isSound, soundMembers_eq, List.all_eq_true]
    exact ih

end Errand.Json

namespace Errand.Json.Reader

/-! ## Reading back -/

theorem skipBlanks_cons {c : Char} (h : isBlank c = false) (cs : List Char) : skipBlanks (c :: cs) = c :: cs := by
  simp [skipBlanks, h]

def BeginsNumber (c : Char) : Prop := c = '-' ∨ isDigit c = true

theorem isBlank_of_beginsNumber {c : Char} (h : BeginsNumber c) : isBlank c = false ∧ c ≠ ']' := by
  rcases h with rfl | hc
  · exact ⟨by decide, by decide⟩
  · have hc : 48 ≤ c.toNat ∧ c.toNat ≤ 57 := by simpa [isDigit, Char.le_def, UInt32.le_iff_toNat_le] using hc
    have hne : ∀ d : Char, d.toNat < 48 ∨ 57 < d.toNat → c ≠ d := by
      rintro d hd rfl
      omega
    simp [isBlank, hne]

theorem exists_chars_int (n : Int) : ∃ c cs, (Json.int n).chars = c :: cs ∧ BeginsNumber c := by
  obtain ⟨c, ds, hds, hc⟩ := exists_toDigits n.natAbs
  rw [chars, toList_toString_int, hds]
  split
  · exact ⟨'-', c :: ds, rfl, .inl rfl⟩
  · exact ⟨c, ds, rfl, .inr hc⟩

/-- a plain value begins with a character that is neither a blank nor the end of an array -/
theorem exists_chars {j : Json} (h : Plain j) : ∃ c cs, j.chars = c :: cs ∧ isBlank c = false ∧ c ≠ ']' := by
  cases h with
  | null => exact ⟨'n', "ull".toList, by simp [chars], by decide, by decide⟩
  | bool b =>
    cases b with
    | false => exact ⟨'f', "alse".toList, by simp [chars], by decide, by decide⟩
    | true => exact ⟨'t', "rue".toList, by simp [chars], by decide, by decide⟩
  | @int n _ _ =>
    obtain ⟨c, cs, hcs, hc⟩ := exists_chars_int n
    exact ⟨c, cs, hcs, isBlank_of_beginsNumber hc⟩
  | str s => exact ⟨'"', _, by rw [chars, quoted], by decide, by decide⟩
  | @arr items _ =>
    cases items with
    | nil => exact ⟨'[', [']'], by rw [chars], by decide, by decide⟩
    | cons j rest => exact ⟨'[', _, by rw [chars], by decide, by decide⟩
  | @obj members _ =>
    rcases members with _ | ⟨⟨k, j⟩, rest⟩
    · exact ⟨'{', ['}'], by rw [chars], by decide, by decide⟩
    · exact ⟨'{', _, by rw [chars], by decide, by decide⟩

theorem skipBlanks_chars {j : Json} (h : Plain j) (rest : List Char) :
    skipBlanks (j.chars ++ rest) = j.chars ++ rest := by
  obtain ⟨c, cs, hchars, hblank, -⟩ := exists_chars h
  rw [hchars, List.cons_append]
  exact skipBlanks_cons hblank _

theorem skipBlanks_quoted (k : String) (rest : List Char) : skipBlanks (quoted k ++ rest) = quoted k ++ rest :=
  skipBlanks_cons (by decide) _

theorem stops_itemChars (items : List Json) (rest : List Char) : Stops (itemChars items ++ rest) := by
  cases items <;> simp [itemChars, Stops, isDigit]

theorem stops_memberChars (members : List (String × Json)) (rest : List Char) :
    Stops (memberChars members ++ rest) := by
  cases members <;> simp [memberChars, Stops, isDigit]

theorem skipBlanks_itemChars (items : List Json) (rest : List Char) :
    skipBlanks (itemChars items ++ rest) = itemChars items ++ rest := by
  cases items <;> exact skipBlanks_cons (by decide) _

theorem skipBlanks_memberChars (members : List (String × Json)) (rest : List Char) :
    skipBlanks (memberChars members ++ rest) = memberChars members ++ rest := by
  rcases members with _ | ⟨⟨k, j⟩, members⟩ <;> exact skipBlanks_cons (by decide) _

/-- the value is read from the front of any text that begins with its own and then stops -/
def ReadBack (j : Json) : Prop :=
  ∀ fuel room rest, 2 * j.chars.length ≤ fuel → j.depth ≤ room → Stops rest →
    value? fuel room (j.chars ++ rest) = some (j, rest)

/-- the further items and the end of an array; the induction is on the items -/
theorem moreItems?_chars {items : List Json} (hp : ∀ j ∈ items, Plain j) (h : ∀ j ∈ items, ReadBack j)
    {fuel room : Nat} (rest : List Char) (hf : 2 * (itemChars items).length ≤ fuel)
    (hd : ∀ j ∈ items, j.depth ≤ room) : moreItems? fuel room (itemChars items ++ rest) = some (items, rest) := by
  induction items generalizing fuel with
  | nil =>
    obtain ⟨fuel, rfl⟩ : ∃ f, fuel = f + 1 := Nat.exists_eq_add_one.2 (by simp [itemChars] at hf; omega)
    simp [itemChars, moreItems?]
  | cons j items ih =>
    simp only [itemChars, List.length_cons, List.length_append] at hf
    obtain ⟨fuel, rfl⟩ : ∃ f, fuel = f + 1 := Nat.exists_eq_add_one.2 (by omega)
    have hskip := skipBlanks_chars (hp j List.mem_cons_self) (itemChars items ++ rest)
    have hvalue := h j List.mem_cons_self fuel room (itemChars items ++ rest) (by omega) (hd j List.mem_cons_self)
      (stops_itemChars items rest)
    have hlen : 2 * (itemChars items).length ≤ fuel := by omega
    have hmore := ih (fun j hj => hp j (List.mem_cons_of_mem _ hj)) (fun j hj => h j (List.mem_cons_of_mem _ hj)) hlen
      fun j hj => hd j (List.mem_cons_of_mem _ hj)
    simp only [itemChars, List.cons_append, List.append_assoc, moreItems?, hskip, hvalue, Option.bind_eq_bind,
      Option.bind_some, skipBlanks_itemChars, hmore]
    rfl

theorem member?_chars {k : String} {j : Json} (hp : Plain j) (h : ReadBack j) {fuel room : Nat} {rest : List Char}
    (hf : 2 * j.chars.length + 1 ≤ fuel) (hd : j.depth ≤ room) (hr : Stops rest) :
    member? fuel room (quoted k ++ ':' :: (j.chars ++ rest)) = some ((some k, j), rest) := by
  obtain ⟨fuel, rfl⟩ : ∃ f, fuel = f + 1 := Nat.exists_eq_add_one.2 (by omega)
  have hcolon : skipBlanks (':' :: (j.chars ++ rest)) = ':' :: (j.chars ++ rest) := skipBlanks_cons (by decide) _
  simp only [quoted, List.cons_append, List.append_assoc, List.nil_append, member?, string?_quoted,
    Option.bind_eq_bind, Option.bind_some, hcolon, skipBlanks_chars hp, h fuel room rest (by omega) hd hr]
  rfl

/-- the further members and the end of an object; the induction is on the members -/
theorem moreMembers?_chars {members : List (String × Json)} (hp : ∀ m ∈ members, Plain m.2)
    (h : ∀ m ∈ members, ReadBack m.2) {fuel room : Nat} (rest : List Char)
    (hf : 2 * (memberChars members).length ≤ fuel) (hd : ∀ m ∈ members, m.2.depth ≤ room) :
    moreMembers? fuel room (memberChars members ++ rest) = some (some members, rest) := by
  induction members generalizing fuel with
  | nil =>
    obtain ⟨fuel, rfl⟩ : ∃ f, fuel = f + 1 := Nat.exists_eq_add_one.2 (by simp [memberChars] at hf; omega)
    simp [memberChars, moreMembers?]
  | cons m members ih =>
    obtain ⟨k, j⟩ := m
    simp only [memberChars, List.length_cons, List.length_append] at hf
    obtain ⟨fuel, rfl⟩ : ∃ f, fuel = f + 1 := Nat.exists_eq_add_one.2 (by omega)
    have hplain : Plain j := hp (k, j) List.mem_cons_self
    have hback : ReadBack j := h (k, j) List.mem_cons_self
    have hroom : j.depth ≤ room := hd (k, j) List.mem_cons_self
    have hlen : 2 * j.chars.length + 1 ≤ fuel := by omega
    have hmember := member?_chars hplain hback (k := k) hlen hroom (stops_memberChars members rest)
    have hlens : 2 * (memberChars members).length ≤ fuel := by omega
    have hmore := ih (fun m hm => hp m (List.mem_cons_of_mem _ hm)) (fun m hm => h m (List.mem_cons_of_mem _ hm)) hlens
      fun m hm => hd m (List.mem_cons_of_mem _ hm)
    simp only [memberChars, List.cons_append, List.append_assoc, moreMembers?, skipBlanks_quoted, hmember,
      Option.bind_eq_bind, Option.bind_some, skipBlanks_memberChars, hmore]
    rfl

/-- only numbers begin with a sign or a digit -/
theorem value?_number {c : Char} (hc : BeginsNumber c) (fuel room : Nat) (cs : List Char) :
    value? (fuel + 1) room (c :: cs) = (numeral? (c :: cs)).map fun r => (r.1.value, r.2) := by
  have hother : ∀ d : Char, d ≠ '-' → isDigit d = false → c ≠ d := by
    rintro d hd hdigit rfl
    rcases hc with rfl | hc
    · exact hd rfl
    · rw [hdigit] at hc
      cases hc
  rw [value?.eq_def]
  simp only
  split
  all_goals first
    | rfl
    | rename_i he
      exact absurd (List.cons.inj he).1 (hother _ (by decide) (by decide))

theorem within_of_depth_le {j : Json} {n room : Nat} (h : n + 1 ≤ room) : within room j = j := if_neg (by omega)

theorem items?_chars {j : Json} {items : List Json} (hp : ∀ i ∈ j :: items, Plain i)
    (h : ∀ i ∈ j :: items, ReadBack i) {fuel room : Nat} (rest : List Char)
    (hf : 2 * (j.chars ++ itemChars items).length + 1 ≤ fuel) (hd : ∀ i ∈ j :: items, i.depth ≤ room) :
    items? fuel room (j.chars ++ (itemChars items ++ rest)) = some (j :: items, rest) := by
  rw [List.length_append] at hf
  obtain ⟨fuel, rfl⟩ : ∃ f, fuel = f + 1 := Nat.exists_eq_add_one.2 (by omega)
  have hvalue := h j List.mem_cons_self fuel room (itemChars items ++ rest) (by omega) (hd j List.mem_cons_self)
    (stops_itemChars items rest)
  have hlen : 2 * (itemChars items).length ≤ fuel := by omega
  have hmore := moreItems?_chars (fun i hi => hp i (List.mem_cons_of_mem _ hi))
    (fun i hi => h i (List.mem_cons_of_mem _ hi)) rest hlen fun i hi => hd i (List.mem_cons_of_mem _ hi)
  obtain ⟨c, cs, hchars, -, hend⟩ := exists_chars (hp j List.mem_cons_self)
  rw [hchars, List.cons_append] at hvalue ⊢
  rw [items?.eq_def]
  simp only
  split
  · rename_i he
    exact absurd (List.cons.inj he).1 hend
  · simp only [hvalue, Option.bind_eq_bind, Option.bind_some, skipBlanks_itemChars, hmore]
    rfl

theorem members?_chars {k : String} {j : Json} {members : List (String × Json)}
    (hp : ∀ m ∈ (k, j) :: members, Plain m.2) (h : ∀ m ∈ (k, j) :: members, ReadBack m.2) {fuel room : Nat}
    (rest : List Char) (hf : 2 * (quoted k ++ ':' :: (j.chars ++ memberChars members)).length + 1 ≤ fuel)
    (hd : ∀ m ∈ (k, j) :: members, m.2.depth ≤ room) :
    members? fuel room (quoted k ++ ':' :: (j.chars ++ (memberChars members ++ rest))) =
      some (some ((k, j) :: members), rest) := by
  simp only [List.length_append, List.length_cons] at hf
  obtain ⟨fuel, rfl⟩ : ∃ f, fuel = f + 1 := Nat.exists_eq_add_one.2 (by omega)
  have hmember := member?_chars (k := k) (hp (k, j) List.mem_cons_self) (h (k, j) List.mem_cons_self)
    (show 2 * j.chars.length + 1 ≤ fuel by omega) (hd (k, j) List.mem_cons_self) (stops_memberChars members rest)
  have hlen : 2 * (memberChars members).length ≤ fuel := by omega
  have hmore := moreMembers?_chars (fun m hm => hp m (List.mem_cons_of_mem _ hm))
    (fun m hm => h m (List.mem_cons_of_mem _ hm)) rest hlen fun m hm => hd m (List.mem_cons_of_mem _ hm)
  rw [quoted, List.cons_append] at hmember ⊢
  rw [members?.eq_def]
  simp only [hmember, Option.bind_eq_bind, Option.bind_some, skipBlanks_memberChars, hmore]
  rfl

/-- **A plain value is read back** from the front of any text, with room for its depth -/
theorem value?_chars {j : Json} (h : Plain j) : ReadBack j := by
  induction h with
  | null =>
    intro fuel room rest hf hd hr
    obtain ⟨fuel, rfl⟩ : ∃ f, fuel = f + 1 := Nat.exists_eq_add_one.2 (by simp [chars] at hf; omega)
    simp [chars, value?, word?]
    rfl
  | bool b =>
    intro fuel room rest hf hd hr
    obtain ⟨fuel, rfl⟩ : ∃ f, fuel = f + 1 := Nat.exists_eq_add_one.2 (by cases b <;> simp [chars] at hf <;> omega)
    cases b <;> simp [chars, value?, word?] <;> rfl
  | @int n hl hu =>
    intro fuel room rest hf hd hr
    obtain ⟨c, cs, hchars, hc⟩ := exists_chars_int n
    rw [hchars, List.length_cons] at hf
    obtain ⟨fuel, rfl⟩ : ∃ f, fuel = f + 1 := Nat.exists_eq_add_one.2 (by omega)
    rw [hchars, List.cons_append, value?_number hc, ← List.cons_append, ← hchars, chars, numeral?_chars n hr,
      Option.map_some, value_numeral hl hu]
  | str s =>
    intro fuel room rest hf hd hr
    obtain ⟨fuel, rfl⟩ : ∃ f, fuel = f + 1 := Nat.exists_eq_add_one.2 (by simp [chars, quoted] at hf; omega)
    simp [chars, quoted, value?, string?_quoted]
  | @arr items h ih =>
    intro fuel room rest hf hd hr
    cases items with
    | nil =>
      obtain ⟨fuel, rfl⟩ : ∃ f, fuel = f + 2 := Nat.exists_eq_add_of_le' (by simp [chars] at hf; omega)
      simp [chars, value?, items?, skipBlanks_cons, isBlank, within_of_depth_le hd]
    | cons j items =>
      simp only [chars, List.length_cons] at hf
      obtain ⟨fuel, rfl⟩ : ∃ f, fuel = f + 1 := Nat.exists_eq_add_one.2 (by omega)
      obtain ⟨room, rfl⟩ : ∃ r, room = r + 1 := Nat.exists_eq_add_one.2 (by rw [depth] at hd; omega)
      have hitems := items?_chars h ih rest (show _ ≤ fuel by omega) (depth_arr_le.1 hd)
      simp [chars, value?, skipBlanks_chars (h j List.mem_cons_self), hitems, within_of_depth_le hd]
  | @obj members h ih =>
    intro fuel room rest hf hd hr
    rcases members with _ | ⟨⟨k, j⟩, members⟩
    · obtain ⟨fuel, rfl⟩ : ∃ f, fuel = f + 2 := Nat.exists_eq_add_of_le' (by simp [chars] at hf; omega)
      simp [chars, value?, members?, skipBlanks_cons, isBlank, within_of_depth_le hd]
    · simp only [chars, List.length_cons] at hf
      obtain ⟨fuel, rfl⟩ : ∃ f, fuel = f + 1 := Nat.exists_eq_add_one.2 (by omega)
      obtain ⟨room, rfl⟩ : ∃ r, room = r + 1 := Nat.exists_eq_add_one.2 (by rw [depth] at hd; omega)
      have hmembers := members?_chars h ih rest (show _ ≤ fuel by omega) (depth_obj_le.1 hd)
      simp [chars, value?, skipBlanks_quoted, hmembers, within_of_depth_le hd]

/-! ## Room -/

theorem depth_within {j : Json} {room : Nat} (h : j.depth ≤ room - 1 + 1) : (within room j).depth ≤ room := by
  unfold within
  split
  · exact Nat.zero_le _
  · omega

theorem depth_real (n : Numeral) : n.real.depth = 0 := by
  unfold Numeral.real
  simp only
  split <;> rfl

theorem depth_value (n : Numeral) : n.value.depth = 0 := by
  unfold Numeral.value
  simp only
  split_ifs
  all_goals first
    | exact depth_real n
    | rfl

/-- with some fuel, no reader reads a value that is deeper than there was room -/
structure Shallow (fuel : Nat) : Prop where
  value {room cs j rest} : value? fuel room cs = some (j, rest) → j.depth ≤ room
  items {room cs items rest} : items? fuel room cs = some (items, rest) → ∀ j ∈ items, j.depth ≤ room
  moreItems {room cs items rest} : moreItems? fuel room cs = some (items, rest) → ∀ j ∈ items, j.depth ≤ room
  members {room cs members rest} :
    members? fuel room cs = some (some members, rest) → ∀ m ∈ members, m.2.depth ≤ room
  moreMembers {room cs members rest} :
    moreMembers? fuel room cs = some (some members, rest) → ∀ m ∈ members, m.2.depth ≤ room
  member {room cs k? j rest} : member? fuel room cs = some ((k?, j), rest) → j.depth ≤ room

namespace Shallow

variable {fuel : Nat}

theorem value_succ (h : Shallow fuel) {room cs j rest} (hr : value? (fuel + 1) room cs = some (j, rest)) :
    j.depth ≤ room := by
  rw [value?.eq_def] at hr
  simp only [Option.bind_eq_bind] at hr
  split at hr
  · obtain ⟨⟨s?, rest'⟩, -, hr⟩ := Option.bind_eq_some_iff.1 hr
    cases s? <;> (cases hr; exact Nat.zero_le _)
  · obtain ⟨⟨items, rest'⟩, hitems, hr⟩ := Option.bind_eq_some_iff.1 hr
    cases hr
    exact depth_within (depth_arr_le.2 (h.items hitems))
  · obtain ⟨⟨members?, rest'⟩, hmembers, hr⟩ := Option.bind_eq_some_iff.1 hr
    cases members? with
    | none =>
      cases hr
      exact depth_within (Nat.zero_le _)
    | some members =>
      cases hr
      exact depth_within (depth_obj_le.2 (h.members hmembers))
  all_goals
    obtain ⟨_, -, hr⟩ := Option.map_eq_some_iff.1 hr
    cases hr
    simp [depth, depth_value]

theorem items_succ (h : Shallow fuel) {room cs items rest} (hr : items? (fuel + 1) room cs = some (items, rest)) :
    ∀ j ∈ items, j.depth ≤ room := by
  rw [items?.eq_def] at hr
  simp only [Option.bind_eq_bind] at hr
  split at hr
  · cases hr
    simp
  · obtain ⟨⟨j, rest'⟩, hj, hr⟩ := Option.bind_eq_some_iff.1 hr
    obtain ⟨⟨more, rest''⟩, hmore, hr⟩ := Option.bind_eq_some_iff.1 hr
    cases hr
    exact List.forall_mem_cons.2 ⟨h.value hj, h.moreItems hmore⟩

theorem moreItems_succ (h : Shallow fuel) {room cs items rest}
    (hr : moreItems? (fuel + 1) room cs = some (items, rest)) : ∀ j ∈ items, j.depth ≤ room := by
  rw [moreItems?.eq_def] at hr
  simp only [Option.bind_eq_bind] at hr
  split at hr
  · cases hr
    simp
  · obtain ⟨⟨j, rest'⟩, hj, hr⟩ := Option.bind_eq_some_iff.1 hr
    obtain ⟨⟨more, rest''⟩, hmore, hr⟩ := Option.bind_eq_some_iff.1 hr
    cases hr
    exact List.forall_mem_cons.2 ⟨h.value hj, h.moreItems hmore⟩
  · cases hr

/-- a member and what follows it; there are no members if one of the names is flawed -/
theorem cons_members (h : Shallow fuel) {room : Nat} {cs cs' : List Char} {k? : Option String} {j : Json} {rest rest'}
    {more? : Option (List (String × Json))} {members} (hj : member? fuel room cs = some ((k?, j), rest))
    (hmore : moreMembers? fuel room cs' = some (more?, rest'))
    (hm : (do return (← k?, j) :: (← more?)) = some members) : ∀ m ∈ members, m.2.depth ≤ room := by
  rcases k? with _ | k
  · cases hm
  rcases more? with _ | more
  · cases hm
  cases hm
  exact List.forall_mem_cons.2 ⟨h.member hj, h.moreMembers hmore⟩

theorem members_succ (h : Shallow fuel) {room cs members rest}
    (hr : members? (fuel + 1) room cs = some (some members, rest)) : ∀ m ∈ members, m.2.depth ≤ room := by
  rw [members?.eq_def] at hr
  simp only [Option.bind_eq_bind] at hr
  split at hr
  · cases hr
    simp
  · obtain ⟨⟨⟨k?, j⟩, rest'⟩, hj, hr⟩ := Option.bind_eq_some_iff.1 hr
    obtain ⟨⟨more?, rest''⟩, hmore, hr⟩ := Option.bind_eq_some_iff.1 hr
    exact h.cons_members hj hmore (Prod.mk.inj (Option.some.inj hr)).1

theorem moreMembers_succ (h : Shallow fuel) {room cs members rest}
    (hr : moreMembers? (fuel + 1) room cs = some (some members, rest)) : ∀ m ∈ members, m.2.depth ≤ room := by
  rw [moreMembers?.eq_def] at hr
  simp only [Option.bind_eq_bind] at hr
  split at hr
  · cases hr
    simp
  · obtain ⟨⟨⟨k?, j⟩, rest'⟩, hj, hr⟩ := Option.bind_eq_some_iff.1 hr
    obtain ⟨⟨more?, rest''⟩, hmore, hr⟩ := Option.bind_eq_some_iff.1 hr
    exact h.cons_members hj hmore (Prod.mk.inj (Option.some.inj hr)).1
  · cases hr

theorem member_succ (h : Shallow fuel) {room cs k? j rest}
    (hr : member? (fuel + 1) room cs = some ((k?, j), rest)) : j.depth ≤ room := by
  rw [member?.eq_def] at hr
  simp only [Option.bind_eq_bind] at hr
  split at hr
  · obtain ⟨⟨k?, rest'⟩, -, hr⟩ := Option.bind_eq_some_iff.1 hr
    simp only at hr
    split at hr
    · obtain ⟨⟨j, rest''⟩, hj, hr⟩ := Option.bind_eq_some_iff.1 hr
      cases hr
      exact h.value hj
    · cases hr
  · cases hr

end Shallow

theorem shallow (fuel : Nat) : Shallow fuel := by
  induction fuel with
  | zero => constructor <;> intros <;> simp_all [value?, items?, moreItems?, members?, moreMembers?, member?]
  | succ fuel ih =>
    exact ⟨ih.value_succ, ih.items_succ, ih.moreItems_succ, ih.members_succ, ih.moreMembers_succ, ih.member_succ⟩

end Errand.Json.Reader

namespace Errand.Json

/-! ## Whole texts -/

theorem depth_of_parseWithin? {room : Nat} {text : String} {j : Json} (h : parseWithin? room text = some j) :
    j.depth ≤ room := by
  unfold parseWithin? at h
  simp only at h
  split at h
  · rename_i hvalue
    split at h
    · cases h
      exact (Reader.shallow _).value hvalue
    · cases h
  · cases h

/-- **A plain value is what its own text writes**, with room for its depth -/
theorem parseWithin?_text {j : Json} (h : Plain j) {room : Nat} (hd : j.depth ≤ room) :
    parseWithin? room j.text = some j := by
  have hskip := Reader.skipBlanks_chars h []
  rw [List.append_nil] at hskip
  have hvalue := Reader.value?_chars h (2 * j.chars.length + 2) room [] (by omega) hd Reader.stops_nil
  rw [List.append_nil] at hvalue
  simp only [parseWithin?, text, String.toList_ofList, hskip, hvalue]
  rfl

end Errand.Json
