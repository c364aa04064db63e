/-
  ClaimQueue.Text.Table — values by name, in the order of the names.

  Names are compared character by character. A table holds each name once, so two tables
  with the same values by name are equal (`ext_get?`).
-/

namespace ClaimQueue

variable {α : Type}

/-- Values by name; the names increase. -/
structure Table (α : Type) where
  entries : List (String × α)
  sorted : entries.Pairwise fun a b => a.1 < b.1

namespace Table

def empty : Table α := ⟨[], .nil⟩

instance : Inhabited (Table α) := ⟨empty⟩

instance [DecidableEq α] : DecidableEq (Table α) := fun a b =>
  decidable_of_iff (a.entries = b.entries) (by cases a; cases b; simp)

def lookup (k : String) : List (String × α) → Option α
  | [] => none
  | (k', v) :: r => if k = k' then some v else lookup k r

def get? (t : Table α) (k : String) : Option α := lookup k t.entries

/-- Put `v` at its place; a value of the same name is replaced. -/
def put (k : String) (v : α) : List (String × α) → List (String × α)
  | [] => [(k, v)]
  | (k', v') :: r =>
    if k < k' then (k, v) :: (k', v') :: r
    else if k = k' then (k, v) :: r
    else (k', v') :: put k v r

theorem mem_put {k : String} {v : α} {l : List (String × α)} {x : String × α} (h : x ∈ put k v l) :
    x = (k, v) ∨ x ∈ l := by
  induction l with
  | nil => simpa [put] using h
  | cons e r ih =>
    obtain ⟨k', v'⟩ := e
    simp only [put] at h
    split at h
    · simpa using h
    · split at h
      · rcases List.mem_cons.mp h with h | h
        · exact Or.inl h
        · exact Or.inr (List.mem_cons_of_mem _ h)
      · rcases List.mem_cons.mp h with h | h
        · exact Or.inr (h ▸ List.mem_cons_self)
        · rcases ih h with h | h
          · exact Or.inl h
          · exact Or.inr (List.mem_cons_of_mem _ h)

theorem lt_of_not_lt {a b : String} (h : ¬a < b) (hne : a ≠ b) : b < a := by grind

theorem sorted_put (k : String) (v : α) {l : List (String × α)} (h : l.Pairwise fun a b => a.1 < b.1) :
    (put k v l).Pairwise fun a b => a.1 < b.1 := by
  induction l with
  | nil => simp [put]
  | cons e r ih =>
    obtain ⟨k', v'⟩ := e
    obtain ⟨hlt, hr⟩ := List.pairwise_cons.mp h
    simp only [put]
    split
    · rename_i hk
      refine List.pairwise_cons.mpr ⟨fun x hx => ?_, h⟩
      rcases List.mem_cons.mp hx with rfl | hx
      · exact hk
      · exact String.lt_trans hk (hlt x hx)
    · split
      · rename_i hk
        subst hk
        exact List.pairwise_cons.mpr ⟨hlt, hr⟩
      · rename_i hk hne
        refine List.pairwise_cons.mpr ⟨fun x hx => ?_, ih hr⟩
        rcases mem_put hx with rfl | hx
        · exact lt_of_not_lt hk hne
        · exact hlt x hx

def insert (t : Table α) (k : String) (v : α) : Table α := ⟨put k v t.entries, sorted_put k v t.sorted⟩

/-- Later values of a name replace earlier ones. -/
def ofList (l : List (String × α)) : Table α := l.foldl (fun t e => t.insert e.1 e.2) empty

def toList (t : Table α) : List (String × α) := t.entries

def map {β : Type} (f : α → β) (t : Table α) : Table β :=
  ⟨t.entries.map fun e => (e.1, f e.2), by
    have := t.sorted
    exact List.pairwise_map.mpr this⟩

/-! ## Look-up -/

@[simp] theorem get?_empty (k : String) : (empty : Table α).get? k = none := rfl

theorem lookup_put (k k' : String) (v : α) (l : List (String × α)) :
    lookup k' (put k v l) = if k' = k then some v else lookup k' l := by
  induction l with
  | nil => simp [put, lookup]
  | cons e r ih =>
    obtain ⟨k₁, v₁⟩ := e
    simp only [put]
    split
    · simp [lookup]
    · split
      · rename_i hk
        subst hk
        by_cases hkk : k' = k <;> simp [lookup, hkk]
      · rename_i hne
        simp only [lookup, ih]
        by_cases h1 : k' = k₁ <;> by_cases h2 : k' = k <;> simp_all

@[simp] theorem get?_insert (t : Table α) (k k' : String) (v : α) :
    (t.insert k v).get? k' = if k' = k then some v else t.get? k' := lookup_put k k' v t.entries

theorem lookup_eq_none {k : String} {l : List (String × α)} (h : ∀ e ∈ l, k ≠ e.1) : lookup k l = none := by
  induction l with
  | nil => rfl
  | cons e r ih =>
    rw [lookup, if_neg (h e List.mem_cons_self)]
    exact ih fun x hx => h x (List.mem_cons_of_mem _ hx)

/-- The head of a sorted list is not looked up in its tail. -/
theorem lookup_head_tail {k : String} {r : List (String × α)} (h : ∀ e ∈ r, k < e.1) : lookup k r = none :=
  lookup_eq_none fun e he hk => String.lt_irrefl k (hk ▸ h e he)

theorem entries_ext {l m : List (String × α)} (hl : l.Pairwise fun a b => a.1 < b.1)
    (hm : m.Pairwise fun a b => a.1 < b.1) (h : ∀ k, lookup k l = lookup k m) : l = m := by
  induction l generalizing m with
  | nil =>
    match m with
    | [] => rfl
    | (k, v) :: r => simpa [lookup] using h k
  | cons e r ih =>
    obtain ⟨k, v⟩ := e
    match m with
    | [] => simpa [lookup] using h k
    | (k', v') :: r' =>
      obtain ⟨hk, hr⟩ := List.pairwise_cons.mp hl
      obtain ⟨hk', hr'⟩ := List.pairwise_cons.mp hm
      have hkk : k = k' := by
        refine Decidable.byContradiction fun hne => ?_
        by_cases hlt : k < k'
        · have := h k
          rw [lookup, if_pos rfl, lookup, if_neg hne,
            lookup_head_tail fun e he => String.lt_trans hlt (hk' e he)] at this
          cases this
        · have := h k'
          rw [lookup, if_neg fun e => hne e.symm, lookup, if_pos rfl,
            lookup_head_tail fun e he => String.lt_trans (lt_of_not_lt hlt hne) (hk e he)] at this
          cases this
      subst hkk
      have hv : v = v' := by simpa [lookup] using h k
      subst hv
      rw [ih hr hr' fun x => ?_]
      by_cases hx : x = k
      · subst hx
        rw [lookup_head_tail hk, lookup_head_tail hk']
      · simpa [lookup, hx] using h x

/-- Tables with the same values by name are equal. -/
theorem ext_get? {t u : Table α} (h : ∀ k, t.get? k = u.get? k) : t = u := by
  obtain ⟨l, hl⟩ := t
  obtain ⟨m, hm⟩ := u
  have : l = m := entries_ext hl hm h
  subst this
  rfl

end Table

end ClaimQueue
