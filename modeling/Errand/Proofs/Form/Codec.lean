/-
Writers and readers that agree.

The JSON form of a type is a writer and a reader. They agree (`Codec`) when each value that fits is written as a plain
value and read back from it, and when what is read fits and is written no deeper than it was. The second half is what
carries a value through its own text: whatever was read from a text that nests its containers deep enough is written
again in as much depth, however long-winded that text was (`Codec.parse?_of_read`).

Agreement is proved for the plain values here, and handed on from a type to its lists and options.
-/
import Errand.Form.Values
import Errand.Proofs.Json.Text

namespace Errand

open Json (Plain fields? member? orElse unrepeated depth_arr_le depth_obj_le)

/-- a writer and a reader agree on the values that fit -/
structure Codec {α : Type} (Fits : α → Prop) (write : α → Json) (read? : Json → Option α) : Prop where
  plain : ∀ a, Fits a → (write a).Plain
  reads : ∀ a, Fits a → read? (write a) = some a
  fits : ∀ j a, read? j = some a → Fits a
  depth_le : ∀ j a, read? j = some a → (write a).depth ≤ j.depth

namespace Codec

variable {α : Type} {Fits : α → Prop} {write : α → Json} {read? : Json → Option α}

/-! ## Texts -/

/-- what fits is what its text stands for, if the text nests no deeper than a text may -/
theorem parse?_write (h : Codec Fits write read?) {a : α} (hf : Fits a) (hd : (write a).depth ≤ Json.maxDepth) :
    (Json.parse? (write a).text).bind read? = some a := by
  rw [Json.parse?, Json.parseWithin?_text (h.plain a hf) hd, Option.bind_some, h.reads a hf]

/-- **What a text is read as is written as a text that is read the same** -/
theorem parse?_of_read (h : Codec Fits write read?) {text : String} {a : α}
    (hr : (Json.parse? text).bind read? = some a) : (Json.parse? (write a).text).bind read? = some a := by
  obtain ⟨j, hj, ha⟩ := Option.bind_eq_some_iff.1 hr
  exact h.parse?_write (h.fits j a ha) ((h.depth_le j a ha).trans (Json.depth_of_parseWithin? hj))

/-! ## Lists and options

Each lemma asks of the values in the list or option only what it needs, so that it can stand in an induction over
them; the two codecs are put together from the lemmas.
-/

theorem mapM_write {as : List α} (h : ∀ a ∈ as, read? (write a) = some a) : (as.map write).mapM read? = some as := by
  induction as with
  | nil => rfl
  | cons a as ih =>
    rw [List.map_cons, List.mapM_cons, h a List.mem_cons_self, ih fun b hb => h b (List.mem_cons_of_mem _ hb)]
    rfl

theorem exists_of_mapM {items : List Json} {as : List α} (h : items.mapM read? = some as) {a : α} (ha : a ∈ as) :
    ∃ j ∈ items, read? j = some a := by
  induction items generalizing as with
  | nil =>
    cases h
    cases ha
  | cons j items ih =>
    rw [List.mapM_cons] at h
    obtain ⟨b, hb, h⟩ := Option.bind_eq_some_iff.1 h
    obtain ⟨bs, hbs, h⟩ := Option.bind_eq_some_iff.1 h
    cases h
    rcases List.mem_cons.1 ha with rfl | ha
    · exact ⟨j, List.mem_cons_self, hb⟩
    · obtain ⟨i, hi, hr⟩ := ih hbs ha
      exact ⟨i, List.mem_cons_of_mem _ hi, hr⟩

theorem exists_of_list? {j : Json} {as : List α} (h : Json.list? read? j = some as) :
    ∃ items, j = .arr items ∧ ∀ a ∈ as, ∃ i ∈ items, read? i = some a := by
  unfold Json.list? at h
  split at h
  · exact ⟨_, rfl, fun a ha => exists_of_mapM h ha⟩
  · cases h

theorem plain_list {as : List α} (h : ∀ a ∈ as, (write a).Plain) : (Json.arr (as.map write)).Plain :=
  .arr (List.forall_mem_map.2 h)

theorem depth_list {j : Json} {as : List α} (hr : Json.list? read? j = some as)
    (h : ∀ a ∈ as, ∀ i, read? i = some a → (write a).depth ≤ i.depth) : (Json.arr (as.map write)).depth ≤ j.depth := by
  obtain ⟨items, rfl, hitems⟩ := exists_of_list? hr
  refine depth_arr_le.2 (List.forall_mem_map.2 fun a ha => ?_)
  obtain ⟨i, hi, hread⟩ := hitems a ha
  exact (h a ha i hread).trans (Json.depthItems_le.1 le_rfl i hi)

theorem list (h : Codec Fits write read?) :
    Codec (fun as => ∀ a ∈ as, Fits a) (fun as => .arr (as.map write)) (Json.list? read?) where
  plain as hf := plain_list fun a ha => h.plain a (hf a ha)
  reads as hf := mapM_write fun a ha => h.reads a (hf a ha)
  fits j as hr a ha := by
    obtain ⟨items, rfl, hitems⟩ := exists_of_list? hr
    obtain ⟨i, -, hi⟩ := hitems a ha
    exact h.fits i a hi
  depth_le j as hr := depth_list hr fun a _ i => h.depth_le i a

theorem option?_of_ne_null {j : Json} (h : j ≠ .null) : Json.option? read? j = (read? j).map some := by
  cases j <;> first | rfl | exact absurd rfl h

theorem plain_option {a? : Option α} (h : ∀ a ∈ a?, (write a).Plain) : (Json.ofOption write a?).Plain := by
  cases a? with
  | none => exact .null
  | some a => exact h a rfl

theorem option?_write (hn : ∀ a, write a ≠ .null) {a? : Option α} (h : ∀ a ∈ a?, read? (write a) = some a) :
    Json.option? read? (.ofOption write a?) = some a? := by
  cases a? with
  | none => rfl
  | some a => rw [Json.ofOption, option?_of_ne_null (hn a), h a rfl, Option.map_some]

/-- nothing was read, or something that the same value gives by itself -/
theorem of_option? {j : Json} {a? : Option α} (h : Json.option? read? j = some a?) :
    a? = none ∨ ∃ a, a? = some a ∧ read? j = some a := by
  by_cases hj : j = .null
  · subst hj
    exact .inl (Option.some.inj h).symm
  · rw [option?_of_ne_null hj] at h
    obtain ⟨a, ha, rfl⟩ := Option.map_eq_some_iff.1 h
    exact .inr ⟨a, rfl, ha⟩

theorem depth_option {j : Json} {a? : Option α} (hr : Json.option? read? j = some a?)
    (h : ∀ a ∈ a?, read? j = some a → (write a).depth ≤ j.depth) : (Json.ofOption write a?).depth ≤ j.depth := by
  obtain rfl | ⟨a, rfl, ha⟩ := of_option? hr
  · exact Nat.zero_le _
  · exact h a rfl ha

/-- values that may be absent, of a type whose values are not written as nothing -/
theorem option (h : Codec Fits write read?) (hn : ∀ a, write a ≠ .null) :
    Codec (fun a? => ∀ a ∈ a?, Fits a) (Json.ofOption write) (Json.option? read?) where
  plain a? hf := plain_option fun a ha => h.plain a (hf a ha)
  reads a? hf := option?_write hn fun a ha => h.reads a (hf a ha)
  fits j a? hr := by
    obtain rfl | ⟨a, rfl, ha⟩ := of_option? hr
    · simp
    · rintro _ ⟨⟩
      exact h.fits j a ha
  depth_le j a? hr := depth_option hr fun a _ => h.depth_le j a

/-! ## Values that may be missing -/

theorem fits_of_orElse (h : Codec Fits write read?) {fallback a : α} (hf : Fits fallback) {j? : Option Json}
    (hr : orElse read? fallback j? = some a) : Fits a := by
  cases j? with
  | none =>
    cases hr
    exact hf
  | some j => exact h.fits j a hr

theorem depth_of_orElse (h : Codec Fits write read?) {fallback a : α} {j? : Option Json}
    (hr : orElse read? fallback j? = some a) {n : Nat} (hn : ∀ j ∈ j?, j.depth ≤ n)
    (hf : (write fallback).depth ≤ n) : (write a).depth ≤ n := by
  cases j? with
  | none =>
    cases hr
    exact hf
  | some j => exact (h.depth_le j a hr).trans (hn j rfl)

/-! ## Types of one field -/

theorem map (h : Codec Fits write read?) {β : Type} {wrap : α → β} {field : β → α} (hfield : ∀ a, field (wrap a) = a)
    (hwrap : ∀ b, wrap (field b) = b) :
    Codec (fun b => Fits (field b)) (fun b => write (field b)) (fun j => (read? j).map wrap) where
  plain b hf := h.plain (field b) hf
  reads b hf := by rw [h.reads (field b) hf, Option.map_some, hwrap]
  fits j b hr := by
    obtain ⟨a, ha, rfl⟩ := Option.map_eq_some_iff.1 hr
    rw [hfield]
    exact h.fits j a ha
  depth_le j b hr := by
    obtain ⟨a, ha, rfl⟩ := Option.map_eq_some_iff.1 hr
    rw [hfield]
    exact h.depth_le j a ha

end Codec

/-! ## Numbers, strings and words -/

/-- values without a container -/
theorem Codec.leaf {α : Type} {Fits : α → Prop} {write : α → Json} {read? : Json → Option α}
    (plain : ∀ a, Fits a → (write a).Plain) (reads : ∀ a, Fits a → read? (write a) = some a)
    (fits : ∀ j a, read? j = some a → Fits a) (depth : ∀ a, (write a).depth = 0) : Codec Fits write read? :=
  ⟨plain, reads, fits, fun _ a _ => (depth a).le.trans (Nat.zero_le _)⟩

theorem strCodec : Codec (fun _ => True) Json.str Json.str? :=
  .leaf (fun s _ => .str s) (fun _ _ => rfl) (fun _ _ _ => trivial) fun _ => rfl

theorem intIn?_int {lo hi n : Int} (h : lo ≤ n ∧ n < hi) : Json.intIn? lo hi (.int n) = some n := if_pos h

theorem natBelow?_int {bound n : Nat} (h : n < bound) : Json.natBelow? bound (.int n) = some n := by
  rw [Json.natBelow?, intIn?_int (by omega), Option.map_some, Int.toNat_natCast]

theorem plain_natCast {n : Nat} (h : n < UInt64.size) : (Json.int n).Plain := by
  have hsize : UInt64.size = 2 ^ 64 := rfl
  exact .int (by omega) (by omega)

theorem wordCodec : Codec (fun n : Nat => n < UInt64.size) (fun n => .int n) Json.word? :=
  .leaf (fun _ h => plain_natCast h) (fun _ h => natBelow?_int h)
    (fun j n h => by
      obtain ⟨i, hi, rfl⟩ := Option.map_eq_some_iff.1 h
      unfold Json.intIn? at hi
      split at hi
      · split at hi
        · cases hi
          omega
        · cases hi
      · cases hi)
    fun _ => rfl

theorem int64Codec : Codec (fun _ => True) (fun n : Int64 => .int n.toInt) Json.int64? :=
  .leaf (fun n _ => .int (by have := n.le_toInt; omega) (by have := n.toInt_lt; omega))
    (fun n _ => by
      have hmin : Int64.minValue.toInt = -2 ^ 63 := rfl
      have hmax : Int64.maxValue.toInt + 1 = 2 ^ 63 := rfl
      rw [Json.int64?, hmin, hmax, intIn?_int ⟨n.le_toInt, n.toInt_lt⟩, Option.map_some, Int64.ofInt_toInt])
    (fun _ _ _ => trivial) fun _ => rfl

theorem uint64Codec : Codec (fun _ => True) (fun n : UInt64 => .int n.toNat) Json.uint64? :=
  .leaf (fun n _ => plain_natCast n.toNat_lt_size)
    (fun n _ => by rw [Json.uint64?, natBelow?_int n.toNat_lt_size, Option.map_some, UInt64.ofNat_toNat])
    (fun _ _ _ => trivial) fun _ => rfl

theorem uint32Codec : Codec (fun _ => True) (fun n : UInt32 => .int n.toNat) Json.uint32? :=
  .leaf (fun n _ => plain_natCast (n.toNat_lt_size.trans (by decide)))
    (fun n _ => by rw [Json.uint32?, natBelow?_int n.toNat_lt_size, Option.map_some, UInt32.ofNat_toNat])
    (fun _ _ _ => trivial) fun _ => rfl

theorem UnitId.codec : Codec (fun _ => True) UnitId.toJson UnitId.ofJson? :=
  uint32Codec.map (fun _ => rfl) fun _ => rfl

theorem FactionId.codec : Codec (fun _ => True) FactionId.toJson FactionId.ofJson? :=
  uint32Codec.map (fun _ => rfl) fun _ => rfl

theorem wordedCodec {α : Type} [Worded α] (h : ∀ a : α, Worded.ofWord? (Worded.word a) = some a) :
    Codec (fun _ => True) (Worded.toJson : α → Json) Worded.ofJson? :=
  .leaf (fun _ _ => .str _) (fun a _ => h a) (fun _ _ _ => trivial) fun _ => rfl

theorem keptCodec {α : Type} [Worded α] (h : ∀ a : α, Worded.ofWord? (Worded.word a) = some a) :
    Codec (fun _ => True) (Worded.toJson : α → Json) Worded.ofKept? :=
  .leaf (fun _ _ => .str _) (fun a _ => h a) (fun _ _ _ => trivial) fun _ => rfl

theorem ExecState.ofWord?_word (x : ExecState) : Worded.ofWord? (Worded.word x) = some x := by cases x <;> rfl

theorem Branch.ofWord?_word (b : Branch) : Worded.ofWord? (Worded.word b) = some b := by cases b <;> rfl

theorem ActionKind.ofWord?_word (k : ActionKind) : Worded.ofWord? (Worded.word k) = some k := by cases k <;> rfl

/-! ## Records -/

theorem depth_of_member? {members : List (String × Json)} {name : String} {j : Json}
    (h : member? members name = some j) : j.depth ≤ Json.depthMembers members :=
  Json.depthMembers_le.1 le_rfl (name, j) (Json.lookup_mem h)

/-- what has fields is deeper than each of them -/
theorem depth_of_fields? {names : List String} {j : Json} {fs : List (Option Json)} (h : fields? names j = some fs) :
    ∃ n, j.depth = n + 1 ∧ ∀ f, some f ∈ fs → f.depth ≤ n := by
  unfold fields? at h
  split at h
  · rename_i members
    split at h
    · cases h
      refine ⟨Json.depthMembers members, rfl, fun f hf => ?_⟩
      obtain ⟨k, -, hk⟩ := List.mem_map.1 hf
      exact depth_of_member? hk
    · cases h
  · rename_i items
    split at h
    · cases h
      refine ⟨Json.depthItems items, rfl, fun f hf => ?_⟩
      have hf : f ∈ items := by simpa using hf
      exact Json.depthItems_le.1 le_rfl f hf
    · cases h
  · cases h

/-- what is written without any container in its members is no deeper than a record -/
theorem depth_le_of_fields? {names : List String} {j : Json} {fs : List (Option Json)} (h : fields? names j = some fs)
    {members : List (String × Json)} (hm : ∀ m ∈ members, m.2.depth = 0) : (Json.obj members).depth ≤ j.depth := by
  obtain ⟨n, hn, -⟩ := depth_of_fields? h
  rw [hn, depth_obj_le]
  exact fun m hmem => (hm m hmem).le.trans (Nat.zero_le n)

theorem unrepeated_of_nodup {members : List (String × Json)} (h : (members.map (·.1)).Nodup) (names : List String) :
    unrepeated names members = true := by
  refine List.all_eq_true.2 fun n _ => decide_eq_true ?_
  have hcount := List.nodup_iff_count_le_one.1 h n
  rwa [List.count, List.countP_map] at hcount

theorem only?_unrepeated {members : List (String × Json)} (h : (members.map (·.1)).Nodup) (names : List String) :
    Json.only? (unrepeated names members) = some () := by
  rw [unrepeated_of_nodup h]
  rfl

theorem member?_of_mem {members : List (String × Json)} (h : (members.map (·.1)).Nodup) {m : String × Json}
    (hm : m ∈ members) : member? members m.1 = some m.2 := by
  induction members with
  | nil => cases hm
  | cons m' rest ih =>
    obtain ⟨k, j⟩ := m'
    rw [List.map_cons, List.nodup_cons] at h
    rcases List.mem_cons.1 hm with rfl | hm
    · exact List.lookup_cons_self
    · have hne : m.1 ≠ k := fun he => h.1 (List.mem_map.2 ⟨m, hm, he⟩)
      rw [member?, List.lookup_cons, beq_false_of_ne hne]
      exact ih h.2 hm

theorem fields?_of_nodup {members : List (String × Json)} (h : (members.map (·.1)).Nodup) (names : List String) :
    fields? names (.obj members) = some (names.map (member? members)) :=
  if_pos (unrepeated_of_nodup h _)

theorem fields?_obj (members : List (String × Json)) (h : (members.map (·.1)).Nodup) :
    fields? (members.map (·.1)) (.obj members) = some (members.map fun m => some m.2) := by
  rw [fields?_of_nodup h, List.map_map]
  exact congrArg some (List.map_congr_left fun m hm => member?_of_mem h hm)

theorem member?_append_of_not_mem {front : List (String × Json)} {name : String} (h : name ∉ front.map (·.1))
    (rest : List (String × Json)) : member? (front ++ rest) name = member? rest name := by
  induction front with
  | nil => rfl
  | cons m front ih =>
    obtain ⟨k, j⟩ := m
    rw [List.map_cons, List.mem_cons, not_or] at h
    rw [List.cons_append, member?, List.lookup_cons, beq_false_of_ne h.1]
    exact ih h.2

theorem member?_eq_none {members : List (String × Json)} {name : String} (h : name ∉ members.map (·.1)) :
    member? members name = none := by
  have hnone := member?_append_of_not_mem h []
  rwa [List.append_nil] at hnone

theorem Cube.codec : Codec (fun _ => True) Cube.toJson Cube.ofJson? where
  plain c _ := by
    have hx := int64Codec.plain c.x trivial
    have hy := int64Codec.plain c.y trivial
    have hz := int64Codec.plain c.z trivial
    exact .obj (by simp [hx, hy, hz])
  reads c _ := by
    have hfields : fields? ["x", "y", "z"] c.toJson =
        some [some (.int c.x.toInt), some (.int c.y.toInt), some (.int c.z.toInt)] :=
      fields?_obj [("x", .int c.x.toInt), ("y", .int c.y.toInt), ("z", .int c.z.toInt)] (by simp)
    rw [ofJson?, hfields, Option.bind_eq_bind, Option.bind_some]
    simp only [int64Codec.reads, Option.bind_eq_bind, Option.bind_some, Option.pure_def]
  fits _ _ _ := trivial
  depth_le j c h := by
    obtain ⟨fs, hfs, -⟩ := Option.bind_eq_some_iff.1 h
    exact depth_le_of_fields? hfs (by simp [Json.depth])

theorem Span.codec : Codec (fun _ => True) Span.toJson Span.ofJson? where
  plain s _ := by
    have hline := uint64Codec.plain s.line trivial
    have hcolumn := uint64Codec.plain s.column trivial
    exact .obj (by simp [hline, hcolumn])
  reads s _ := by
    have hfields : fields? ["line", "column"] s.toJson = some [some (.int s.line.toNat), some (.int s.column.toNat)] :=
      fields?_obj [("line", .int s.line.toNat), ("column", .int s.column.toNat)] (by simp)
    rw [ofJson?, hfields, Option.bind_eq_bind, Option.bind_some]
    simp only [uint64Codec.reads, Option.bind_eq_bind, Option.bind_some, Option.pure_def]
  fits _ _ _ := trivial
  depth_le j c h := by
    obtain ⟨fs, hfs, -⟩ := Option.bind_eq_some_iff.1 h
    exact depth_le_of_fields? hfs (by simp [Json.depth])

/-! ## Members that may be left out -/

/-- the member for a value, left out where it is the value that a missing member stands for -/
def memberUnless {α : Type} [DecidableEq α] (write : α → Json) (fallback a : α) (name : String) :
    List (String × Json) :=
  if a = fallback then [] else [(name, write a)]

section

variable {α : Type} [DecidableEq α] {Fits : α → Prop} {write : α → Json} {read? : Json → Option α} {fallback a : α}
  {name : String}

theorem keys_memberUnless : ((memberUnless write fallback a name).map (·.1)).Sublist [name] := by
  unfold memberUnless
  split <;> simp

/-- a member that may be left out is read back among others -/
theorem Codec.orElse_memberUnless (h : Codec Fits write read?) (hf : Fits a) (front : List (String × Json))
    {back : List (String × Json)} (hfront : name ∉ front.map (·.1)) (hback : name ∉ back.map (·.1)) :
    orElse read? fallback (member? (front ++ (memberUnless write fallback a name ++ back)) name) = some a := by
  rw [member?_append_of_not_mem hfront]
  unfold memberUnless
  split
  · rename_i ha
    rw [List.nil_append, member?_eq_none hback, orElse, ha]
  · rw [List.cons_append, member?, List.lookup_cons_self, orElse, h.reads a hf]

/-- the last member, if it may be left out -/
theorem Codec.orElse_memberUnless_last (h : Codec Fits write read?) (hf : Fits a) (front : List (String × Json))
    (hfront : name ∉ front.map (·.1)) :
    orElse read? fallback (member? (front ++ memberUnless write fallback a name) name) = some a := by
  have hlast : orElse read? fallback (member? (front ++ (memberUnless write fallback a name ++ [])) name) = some a :=
    h.orElse_memberUnless hf front hfront List.not_mem_nil
  rwa [List.append_nil] at hlast

theorem Codec.plain_memberUnless (h : Codec Fits write read?) (hf : Fits a) (fallback : α) (name : String) :
    ∀ m ∈ memberUnless write fallback a name, m.2.Plain := by
  unfold memberUnless
  split
  · simp
  · simpa using h.plain a hf

/-- what is written for a member that could be left out is no deeper than what was read -/
theorem Codec.depth_memberUnless (h : Codec Fits write read?) {j? : Option Json}
    (hr : orElse read? fallback j? = some a) (name : String) {n : Nat} (hn : ∀ j ∈ j?, j.depth ≤ n) :
    ∀ m ∈ memberUnless write fallback a name, m.2.depth ≤ n := by
  unfold memberUnless
  split
  · simp
  · rename_i hne
    cases j? with
    | none => exact absurd (Option.some.inj hr).symm hne
    | some j => simpa using (h.depth_le j a hr).trans (hn j rfl)

end

end Errand
