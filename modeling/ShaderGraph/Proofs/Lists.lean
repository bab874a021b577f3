import Mathlib.Data.List.Forall2
import Mathlib.Data.List.Induction
import Mathlib.Data.List.Nodup
import Mathlib.Data.List.Perm.Basic

namespace ShaderGraph

/-!
# Lists

Sockets, nodes and connections are looked up by a key: a name, or the end of a connection. While
the keys of a list are distinct, the first element with a key is the only one.

* `find?_key_eq_some` — looking a key up finds exactly the element with that key.
* `filter_key_eq_singleton` — nothing else has the key.
* `lookup_eq_some_iff_mem` — the value of a key in a list of pairs.
* `nodup_map_concat` — the keys stay distinct when an element with a new key is added.
* `eraseDups_concat`, `nodup_eraseDups` — elements without their repetitions, in the order in which
  they come first.
* `map_fst_zip_sublist` — the keys of a list of pairs that has been put together.
* `eq_take_append_cons_drop`, `takeWhile_congr`, `append_cons_inj_of_notMem_right`,
  `pairwise_idxOf_lt`, `rel_of_idxOf_lt` — places in a list.
* `filter_append_eq_left`, `filter_append_eq_right` — a filter that keeps one of two parts.
* `map_eq_of_forall₂`, `mapM_eq_some`, `mapM_eq_of_forall₂`, `forall₂_comp`, `forall₂_append_left`,
  `forall₂_filter`, `forall₂_filterMap_getElem?` — lists whose elements are related one by one.
* `Inserted` — a list with further elements put in between; `Inserted.countP_eq` and
  `Inserted.find?_eq` do not see them, and `Inserted.flatMap_iff` says what they may be.
-/

/-! ### Distinct keys -/

section Keys

variable {α β : Type} [DecidableEq β] {key : α → β} {l : List α}

/-- A search by key finds the element that has the key. -/
theorem find?_key_eq_some (hl : (l.map key).Nodup) {k : β} {a : α} :
    l.find? (key · == k) = some a ↔ a ∈ l ∧ key a = k := by
  induction l with
  | nil => simp
  | cons b l ih =>
    obtain ⟨hb, hl⟩ := List.nodup_cons.mp hl
    rw [List.find?_cons]
    by_cases hk : key b = k
    · have hrest : ∀ c ∈ l, key c ≠ k := by
        intro c hc hck
        exact hb (List.mem_map.mpr ⟨c, hc, hck.trans hk.symm⟩)
      simp only [hk, beq_self_eq_true, Option.some.injEq, List.mem_cons]
      refine ⟨?_, ?_⟩
      · rintro rfl
        exact ⟨.inl rfl, hk⟩
      · rintro ⟨rfl | ha, hak⟩
        · rfl
        · exact absurd hak (hrest a ha)
    · simp only [beq_eq_false_iff_ne.mpr hk, ih hl, List.mem_cons]
      refine ⟨fun h => ⟨.inr h.1, h.2⟩, ?_⟩
      rintro ⟨rfl | ha, hak⟩
      · exact absurd hak hk
      · exact ⟨ha, hak⟩

/-- A search by key finds something if the key occurs. -/
theorem isSome_find?_key {k : β} : (l.find? (key · == k)).isSome ↔ ∃ a ∈ l, key a = k := by
  simp [List.find?_isSome]

/-- With distinct keys, an element is the only one that has its key. -/
theorem filter_key_eq_singleton (hl : (l.map key).Nodup) {a : α} (ha : a ∈ l) :
    l.filter (key · == key a) = [a] := by
  have hnodup : (l.filter (key · == key a)).Nodup := (List.Nodup.of_map key hl).filter _
  rw [← List.perm_singleton, List.perm_ext_iff_of_nodup hnodup (List.nodup_singleton a)]
  intro b
  simp only [List.mem_filter, beq_iff_eq, List.mem_singleton]
  refine ⟨?_, ?_⟩
  · rintro ⟨hb, hkey⟩
    exact List.inj_on_of_nodup_map hl hb ha hkey
  · rintro rfl
    exact ⟨ha, rfl⟩

/-- With distinct keys, the value of a key is the one that stands in the list beside it. -/
theorem lookup_eq_some_iff_mem {l : List (β × α)} (hl : (l.map Prod.fst).Nodup) {k : β} {a : α} :
    l.lookup k = some a ↔ (k, a) ∈ l := by
  rw [List.lookup_eq_some_iff]
  refine ⟨?_, ?_⟩
  · rintro ⟨before, after, rfl, _⟩
    simp
  · intro ha
    obtain ⟨before, after, rfl⟩ := List.append_of_mem ha
    refine ⟨before, after, rfl, ?_⟩
    rintro b hb
    rw [List.map_append, List.nodup_append] at hl
    have hne := hl.2.2 b.1 (List.mem_map_of_mem hb) k (by simp)
    simpa using hne.symm

end Keys

/-- Keys stay distinct if an element with a new one is put at the end. -/
theorem nodup_map_concat {α β : Type} {key : α → β} {l : List α} (hl : (l.map key).Nodup)
    {a : α} (hnew : ∀ b ∈ l, key b ≠ key a) : ((l ++ [a]).map key).Nodup := by
  rw [List.map_append, List.nodup_append]
  refine ⟨hl, List.nodup_singleton _, ?_⟩
  intro k hk k' hk'
  obtain ⟨b, hb, rfl⟩ := List.mem_map.mp hk
  obtain rfl := List.mem_singleton.mp hk'
  exact hnew b hb

/-- A last element counts if it is not in the list already. -/
theorem eraseDups_concat {α : Type*} [BEq α] [LawfulBEq α] (l : List α) (a : α) :
    (l ++ [a]).eraseDups = if a ∈ l then l.eraseDups else l.eraseDups ++ [a] := by
  rw [List.eraseDups_append]
  by_cases ha : a ∈ l <;> simp [List.removeAll, ha, List.eraseDups_cons]

/-- Without its repetitions, a list has none. -/
theorem nodup_eraseDups {α : Type*} [BEq α] [LawfulBEq α] (l : List α) : l.eraseDups.Nodup := by
  induction l using List.reverseRecOn with
  | nil => exact .nil
  | append_singleton l a ih =>
    rw [eraseDups_concat]
    split
    · exact ih
    · next ha =>
      rw [← List.concat_eq_append]
      exact ih.concat (by simpa using ha)

/-- Pairing a list with another one may cut it off, but does not change it. -/
theorem map_fst_zip_sublist {α β : Type} (l : List α) (k : List β) :
    ((l.zip k).map Prod.fst).Sublist l := by
  induction l generalizing k with
  | nil => exact .slnil
  | cons a l ih =>
    cases k with
    | nil => exact List.nil_sublist _
    | cons b k => exact (ih k).cons_cons a

/-! ### Places -/

section Places

variable {α : Type*} {l : List α}

/-- A list around the element at a place. -/
theorem eq_take_append_cons_drop {i : Nat} {a : α} (h : l[i]? = some a) :
    l = l.take i ++ a :: l.drop (i + 1) := by
  obtain ⟨hi, rfl⟩ := List.getElem?_eq_some_iff.mp h
  rw [← List.drop_eq_getElem_cons hi, List.take_append_drop]

/-- Predicates that agree on a list take the same part of it from the front. -/
theorem takeWhile_congr {f g : α → Bool} (h : ∀ a ∈ l, f a = g a) :
    l.takeWhile f = l.takeWhile g := by
  induction l with
  | nil => rfl
  | cons a l ih =>
    obtain ⟨ha, hl⟩ := List.forall_mem_cons.mp h
    rw [List.takeWhile_cons, List.takeWhile_cons, ha, ih hl]

/-- The last place of an element is the one after which the element does not occur. -/
theorem append_cons_inj_of_notMem_right {front front' back back' : List α} {a : α} (h : a ∉ back)
    (h' : a ∉ back') :
    front ++ a :: back = front' ++ a :: back' ↔ front = front' ∧ back = back' := by
  refine ⟨fun heq => ?_, fun heq => by rw [heq.1, heq.2]⟩
  -- One part in front continues the other, and what it has more would hold the separator.
  rcases List.append_eq_append_iff.mp heq with ⟨overlap, hfront, hback⟩ | ⟨overlap, hfront, hback⟩
  · cases overlap with
    | nil => exact ⟨by simpa using hfront.symm, by simpa using hback⟩
    | cons b overlap =>
      have hmem : back = overlap ++ a :: back' := (List.cons.inj hback).2
      exact absurd (by simp [hmem]) h
  · cases overlap with
    | nil => exact ⟨by simpa using hfront, by simpa using hback.symm⟩
    | cons b overlap =>
      have hmem : back' = overlap ++ a :: back := (List.cons.inj hback).2
      exact absurd (by simp [hmem]) h'

variable [DecidableEq α]

/-- Elements of a list without repetitions stand in the order of their places. -/
theorem pairwise_idxOf_lt (hl : l.Nodup) : l.Pairwise fun a b => l.idxOf a < l.idxOf b := by
  rw [List.pairwise_iff_getElem]
  intro i j hi hj hij
  rwa [hl.idxOf_getElem, hl.idxOf_getElem]

/-- If a relation holds of each element and all after it, it holds between elements at ascending
    places. -/
theorem rel_of_idxOf_lt {R : α → α → Prop} (hR : l.Pairwise R) {a b : α} (hb : b ∈ l)
    (hlt : l.idxOf a < l.idxOf b) : R a b := by
  have hj := List.idxOf_lt_length_of_mem hb
  have hab := List.pairwise_iff_getElem.mp hR _ _ (Nat.lt_trans hlt hj) hj hlt
  rwa [List.getElem_idxOf, List.getElem_idxOf] at hab

end Places

/-! ### Two parts of a list -/

section Parts

variable {α : Type*} {f : α → Bool} {l l' : List α}

/-- A filter that keeps all of the first part and nothing of the second one. -/
theorem filter_append_eq_left (hl : ∀ a ∈ l, f a = true) (hl' : ∀ a ∈ l', f a = false) :
    (l ++ l').filter f = l := by
  rw [List.filter_append, List.filter_eq_self.mpr hl,
    List.filter_eq_nil_iff.mpr (by simpa using hl'), List.append_nil]

/-- A filter that keeps nothing of the first part and all of the second one. -/
theorem filter_append_eq_right (hl : ∀ a ∈ l, f a = false) (hl' : ∀ a ∈ l', f a = true) :
    (l ++ l').filter f = l' := by
  rw [List.filter_append, List.filter_eq_nil_iff.mpr (by simpa using hl),
    List.filter_eq_self.mpr hl', List.nil_append]

end Parts

/-! ### Related elements -/

section Related

variable {α β γ : Type*} {R : α → β → Prop} {S : β → γ → Prop} {T : α → γ → Prop}

/-- Lists whose elements agree one by one under two functions have the same images. -/
theorem map_eq_of_forall₂ {f : α → γ} {h : β → γ} {l : List α} {k : List β}
    (hl : List.Forall₂ (fun a b => f a = h b) l k) : l.map f = k.map h := by
  induction hl with
  | nil => rfl
  | cons hab _ ih => rw [List.map_cons, List.map_cons, hab, ih]

/-- Lists that are related to one list in the middle are related. -/
theorem forall₂_comp (hT : ∀ a b c, R a b → S b c → T a c) {l : List α} {k : List β} {m : List γ}
    (hl : List.Forall₂ R l k) (hk : List.Forall₂ S k m) : List.Forall₂ T l m := by
  induction hl generalizing m with
  | nil => cases hk; exact .nil
  | cons hab _ ih =>
    cases hk with
    | cons hbc hrest => exact .cons (hT _ _ _ hab hbc) (ih hrest)

/-- What is related to two lists in sequence is in two parts that are. -/
theorem forall₂_append_left {l l' : List α} {k : List β} :
    List.Forall₂ R (l ++ l') k ↔
      ∃ m m', k = m ++ m' ∧ List.Forall₂ R l m ∧ List.Forall₂ R l' m' := by
  constructor
  · intro h
    induction l generalizing k with
    | nil => exact ⟨[], k, rfl, .nil, h⟩
    | cons a l ih =>
      cases h with
      | cons hab hrest =>
        obtain ⟨m, m', rfl, hm, hm'⟩ := ih hrest
        exact ⟨_ :: m, m', rfl, .cons hab hm, hm'⟩
  · rintro ⟨m, m', rfl, hm, hm'⟩
    exact List.rel_append hm hm'

/-- What is related to a list around an element is a list around the element related to it. -/
theorem forall₂_append_cons_left {before after : List α} {a : α} {k : List β}
    (h : List.Forall₂ R (before ++ a :: after) k) :
    ∃ m b m', k = m ++ b :: m' ∧ List.Forall₂ R before m ∧ R a b ∧ List.Forall₂ R after m' := by
  obtain ⟨m, rest, rfl, hbefore, hrest⟩ := forall₂_append_left.mp h
  obtain ⟨b, m', hab, hafter, rfl⟩ := List.forall₂_cons_left_iff.mp hrest
  exact ⟨m, b, m', rfl, hbefore, hab, hafter⟩

/-- The same, where the other list is taken apart. -/
theorem forall₂_append_cons_right {l : List α} {before after : List β} {b : β}
    (h : List.Forall₂ R l (before ++ b :: after)) :
    ∃ m a m', l = m ++ a :: m' ∧ List.Forall₂ R m before ∧ R a b ∧ List.Forall₂ R m' after := by
  have hflip : List.Forall₂ (flip R) (before ++ b :: after) l := List.Forall₂.flip (R := flip R) h
  obtain ⟨m, a, m', rfl, hbefore, hab, hafter⟩ := forall₂_append_cons_left hflip
  exact ⟨m, a, m', rfl, hbefore.flip, hab, hafter.flip⟩

/-- Each element of the second list has one of the first that is related to it. -/
theorem exists_of_mem_right {l : List α} {k : List β} (hl : List.Forall₂ R l k) {b : β}
    (hb : b ∈ k) : ∃ a ∈ l, R a b := by
  obtain ⟨before, after, rfl⟩ := List.append_of_mem hb
  obtain ⟨m, a, m', rfl, -, hab, -⟩ := forall₂_append_cons_right hl
  exact ⟨a, by simp, hab⟩

/-- Each element of the first list has one of the second to which it is related. -/
theorem exists_of_mem_left {l : List α} {k : List β} (hl : List.Forall₂ R l k) {a : α}
    (ha : a ∈ l) : ∃ b ∈ k, R a b :=
  exists_of_mem_right (List.Forall₂.flip (R := flip R) hl) ha

/-- Filters that agree on related elements keep lists related. -/
theorem forall₂_filter {f : α → Bool} {f' : β → Bool} (hf : ∀ a b, R a b → f a = f' b) {l : List α}
    {k : List β} (hl : List.Forall₂ R l k) : List.Forall₂ R (l.filter f) (k.filter f') := by
  induction hl with
  | nil => exact .nil
  | cons hab _ ih =>
    rw [List.filter_cons, List.filter_cons, hf _ _ hab]
    split
    · exact .cons hab ih
    · exact ih

/-- Elements that are made of something else are made of the elements of a list. -/
theorem exists_eq_zipWith {P : α → γ → Prop} {f : α → γ → β} {l : List α} {k : List β}
    (hl : List.Forall₂ (fun a b => ∃ c, P a c ∧ b = f a c) l k) :
    ∃ m, List.Forall₂ P l m ∧ k = List.zipWith f l m := by
  induction hl with
  | nil => exact ⟨[], .nil, rfl⟩
  | cons hab _ ih =>
    obtain ⟨c, hc, rfl⟩ := hab
    obtain ⟨m, hm, rfl⟩ := ih
    exact ⟨c :: m, .cons hc hm, rfl⟩

/-- The elements at the same positions of related lists are related. -/
theorem forall₂_filterMap_getElem? {l : List α} {k : List β} (hl : List.Forall₂ R l k)
    (positions : List Nat) :
    List.Forall₂ R (positions.filterMap (l[·]?)) (positions.filterMap (k[·]?)) := by
  have hget : ∀ i : Nat, Option.Rel R l[i]? k[i]? := by
    induction hl with
    | nil => exact fun _ => .none
    | cons hab _ ih =>
      intro i
      cases i with
      | zero => exact .some hab
      | succ i => exact ih i
  induction positions with
  | nil => exact .nil
  | cons i positions ih =>
    rw [List.filterMap_cons, List.filterMap_cons]
    match l[i]?, k[i]?, hget i with
    | _, _, .none => exact ih
    | _, _, .some hab => exact .cons hab ih

/-- A traversal gives a list if and only if it gives its elements one by one. -/
theorem mapM_eq_some {α β : Type} {f : α → Option β} {l : List α} {l' : List β} :
    l.mapM f = some l' ↔ List.Forall₂ (fun a b => f a = some b) l l' := by
  induction l generalizing l' with
  | nil => simp [eq_comm]
  | cons a l ih =>
    simp only [List.mapM_cons, Option.bind_eq_bind, Option.bind_eq_some_iff, Option.pure_def,
      Option.some.injEq, List.forall₂_cons_left_iff]
    refine ⟨?_, ?_⟩
    · rintro ⟨b, hb, rest, hrest, rfl⟩
      exact ⟨b, rest, hb, ih.mp hrest, rfl⟩
    · rintro ⟨b, rest, hb, hrest, rfl⟩
      exact ⟨b, hb, rest, ih.mpr hrest, rfl⟩

/-- Traversals do the same if what they do for each element is the same. -/
theorem mapM_eq_of_forall₂ {α β γ : Type} {m : Type → Type} [Monad m] [LawfulMonad m] {f : α → m γ}
    {f' : β → m γ} {l : List α} {k : List β} (hl : List.Forall₂ (fun a b => f a = f' b) l k) :
    l.mapM f = k.mapM f' := by
  induction hl with
  | nil => rfl
  | cons hab _ ih => rw [List.mapM_cons, List.mapM_cons, hab, ih]

end Related

/-! ### Inserted elements -/

/-- The second list is the first one with elements put in that satisfy `P`, wherever they stand. -/
inductive Inserted {α : Type*} (P : α → Prop) : List α → List α → Prop where
  | nil : Inserted P [] []
  | keep (a : α) {l l' : List α} (h : Inserted P l l') : Inserted P (a :: l) (a :: l')
  | insert (a : α) {l l' : List α} (ha : P a) (h : Inserted P l l') : Inserted P l (a :: l')

namespace Inserted

variable {α β : Type*} {P Q : α → Prop} {l l' k k' : List α}

/-- Nothing is put in. -/
theorem refl (l : List α) : Inserted P l l := by
  induction l with
  | nil => exact .nil
  | cons a l ih => exact .keep a ih

/-- All elements are put in. -/
theorem of_forall (hl : ∀ a ∈ l, P a) : Inserted P [] l := by
  induction l with
  | nil => exact .nil
  | cons a l ih =>
    obtain ⟨ha, hl⟩ := List.forall_mem_cons.mp hl
    exact .insert a ha (ih hl)

/-- What is put in satisfies whatever follows from the predicate. -/
theorem imp (hP : ∀ a, P a → Q a) (h : Inserted P l l') : Inserted Q l l' := by
  induction h with
  | nil => exact .nil
  | keep a _ ih => exact .keep a ih
  | insert a ha _ ih => exact .insert a (hP a ha) ih

/-- Insertions into two lists are an insertion into both in sequence. -/
theorem append (h : Inserted P l l') (hk : Inserted P k k') : Inserted P (l ++ k) (l' ++ k') := by
  induction h with
  | nil => exact hk
  | keep a _ ih => exact .keep a ih
  | insert a ha _ ih => exact .insert a ha ih

/-- Insertions into parts are an insertion into the whole. -/
theorem flatMap {m : List β} {f f' : β → List α} (h : ∀ b ∈ m, Inserted P (f b) (f' b)) :
    Inserted P (m.flatMap f) (m.flatMap f') := by
  induction m with
  | nil => exact .nil
  | cons b m ih =>
    obtain ⟨hb, hm⟩ := List.forall_mem_cons.mp h
    exact hb.append (ih hm)

/-- An insertion can be seen through a function. -/
theorem map {f : α → β} {R : β → Prop} (hf : ∀ a, P a → R (f a)) (h : Inserted P l l') :
    Inserted R (l.map f) (l'.map f) := by
  induction h with
  | nil => exact .nil
  | keep a _ ih => exact .keep (f a) ih
  | insert a ha _ ih => exact .insert (f a) (hf a ha) ih

/-- An insertion can be seen through a filter. -/
theorem filter (f : α → Bool) (h : Inserted P l l') : Inserted P (l.filter f) (l'.filter f) := by
  induction h with
  | nil => exact .nil
  | keep a _ ih =>
    rw [List.filter_cons, List.filter_cons]
    split
    · exact .keep a ih
    · exact ih
  | insert a ha _ ih =>
    rw [List.filter_cons]
    split
    · exact .insert a ha ih
    · exact ih

/-- Elements that satisfy `P` are found in the first list or have been put in. -/
theorem mem_or (h : Inserted P l l') {a : α} (ha : a ∈ l') : a ∈ l ∨ P a := by
  induction h with
  | nil => exact .inl ha
  | keep b _ ih =>
    rcases List.mem_cons.mp ha with rfl | ha
    · exact .inl List.mem_cons_self
    · exact (ih ha).imp_left (List.mem_cons_of_mem b)
  | insert b hb _ ih =>
    rcases List.mem_cons.mp ha with rfl | ha
    · exact .inr hb
    · exact ih ha

/-- All elements of the shorter list are in the longer one. -/
theorem mem (h : Inserted P l l') {a : α} (ha : a ∈ l) : a ∈ l' := by
  induction h with
  | nil => exact ha
  | keep b _ ih =>
    rcases List.mem_cons.mp ha with rfl | ha
    · exact List.mem_cons_self
    · exact List.mem_cons_of_mem b (ih ha)
  | insert b _ _ ih => exact List.mem_cons_of_mem b (ih ha)

/-- What is made of the elements one by one, the same in both lists, is related like the
    elements. -/
theorem forall₂ {R R' : α → β → Prop} {S : β → Prop} {m m' : List β} (h : Inserted P l l')
    (hsame : ∀ a ∈ l, ∀ b b', R a b → R' a b' → b' = b) (hinserted : ∀ a b, P a → R' a b → S b)
    (hm : List.Forall₂ R l m) (hm' : List.Forall₂ R' l' m') : Inserted S m m' := by
  induction h generalizing m m' with
  | nil =>
    cases hm
    cases hm'
    exact .nil
  | keep a _ ih =>
    obtain ⟨ha, hsame⟩ := List.forall_mem_cons.mp hsame
    cases hm with
    | cons hab hm =>
      cases hm' with
      | cons hab' hm' =>
        obtain rfl := ha _ _ hab hab'
        exact .keep _ (ih hsame hm hm')
  | insert a ha _ ih =>
    cases hm' with
    | cons hab' hm' => exact .insert _ (hinserted a _ ha hab') (ih hsame hm hm')

/-- Inserted elements do not count where only others are counted. -/
theorem countP_eq {f : α → Bool} (h : Inserted P l l') (hf : ∀ a, P a → f a = false) :
    l'.countP f = l.countP f := by
  induction h with
  | nil => rfl
  | keep a _ ih => rw [List.countP_cons, List.countP_cons, ih]
  | insert a ha _ ih => rw [List.countP_cons_of_neg (by simp [hf a ha]), ih]

/-- Inserted elements are not found where others are looked for. -/
theorem find?_eq {f : α → Bool} (h : Inserted P l l') (hf : ∀ a, P a → f a = false) :
    l'.find? f = l.find? f := by
  induction h with
  | nil => rfl
  | keep a _ ih => rw [List.find?_cons, List.find?_cons, ih]
  | insert a ha _ ih => rw [List.find?_cons, hf a ha, ih]

/-- If the second list consists of the first one and of the elements of `k`, then these are what has
    been put in, as far as `P` can tell. -/
theorem forall_of_perm (h : Inserted P l l') (hperm : l'.Perm (k ++ l)) : ∀ a ∈ k, P a := by
  classical
  have hcount := hperm.countP_eq (¬ P ·)
  rw [h.countP_eq (by simp), List.countP_append] at hcount
  have hnone : k.countP (¬ P ·) = 0 := by omega
  intro a ha
  simpa using List.countP_eq_zero.mp hnone a ha

/-- What stands in front of the pieces of a list is inserted if all of it satisfies `P`, and only
    then. -/
theorem flatMap_iff {front back : List α} {m : List β} {f added : β → List α} :
    Inserted P (front ++ m.flatMap f ++ back)
      (front ++ m.flatMap (fun b => added b ++ f b) ++ back) ↔
      ∀ b ∈ m, ∀ a ∈ added b, P a := by
  constructor
  · -- Up to their order, the elements of the second list are those added and those of the first.
    intro h
    have hperm : (front ++ m.flatMap (fun b => added b ++ f b) ++ back).Perm
        (m.flatMap added ++ (front ++ m.flatMap f ++ back)) := by
      have hsplit := (List.flatMap_append_perm m added f).symm
      rw [List.append_assoc, List.append_assoc]
      refine ((hsplit.append_right _).append_left _).trans ?_
      rw [List.append_assoc]
      exact List.perm_append_comm_assoc _ _ _
    intro b hb a ha
    exact h.forall_of_perm hperm a (List.mem_flatMap.mpr ⟨b, hb, ha⟩)
  · intro h
    have hpieces : Inserted P (m.flatMap f) (m.flatMap fun b => added b ++ f b) :=
      flatMap fun b hb => (of_forall (h b hb)).append (refl (f b))
    exact ((refl front).append hpieces).append (refl back)

end Inserted

end ShaderGraph
