/-!
# Ordered mappings

A mapping is a list of pairs in order of first appearance of the keys. A pair that is added for a
key already present gives it a new value in its old place, which is what a text that repeats a key
means wherever this library reads one.
-/

namespace GrammarLoader

namespace Assoc

/-- Gives a key a value: a key already present keeps its place. -/
def insert {α β : Type} [BEq α] (key : α) (value : β) : List (α × β) → List (α × β)
  | [] => [(key, value)]
  | (k, v) :: rest => if k == key then (k, value) :: rest else (k, v) :: insert key value rest

/-- Adds pairs one after the other. -/
def insertAll {α β : Type} [BEq α] (old new : List (α × β)) : List (α × β) :=
  new.foldl (fun acc p => insert p.1 p.2 acc) old

/-- The mapping that a list of pairs stands for: of a repeated key the first place and the last
value count. -/
def ofPairs {α β : Type} [BEq α] (pairs : List (α × β)) : List (α × β) := insertAll [] pairs

/-- Removes a key. -/
def erase {α β : Type} [BEq α] (key : α) (pairs : List (α × β)) : List (α × β) :=
  pairs.filter (fun p => !(p.1 == key))

@[simp] theorem lookup_insert_self {α β : Type} [BEq α] [LawfulBEq α] (key : α) (value : β)
    (pairs : List (α × β)) : (insert key value pairs).lookup key = some value := by
  induction pairs with
  | nil => simp [insert]
  | cons p rest ih =>
    obtain ⟨k, v⟩ := p
    by_cases h : k = key
    · subst h; simp [insert]
    · have h' : (key == k) = false := by simpa using fun e => h e.symm
      simp [insert, h, List.lookup_cons, h', ih]

theorem lookup_insert_of_ne {α β : Type} [BEq α] [LawfulBEq α] {key other : α} (value : β)
    (pairs : List (α × β)) (hne : other ≠ key) :
    (insert key value pairs).lookup other = pairs.lookup other := by
  have h₀ : (other == key) = false := by simpa using hne
  induction pairs with
  | nil => simp [insert, List.lookup_cons, h₀]
  | cons p rest ih =>
    obtain ⟨k, v⟩ := p
    by_cases h : k = key
    · subst h
      simp [insert, List.lookup_cons, h₀]
    · by_cases ho : other = k
      · subst ho; simp [insert, h]
      · have h' : (other == k) = false := by simpa using ho
        simp [insert, h, List.lookup_cons, h', ih]

/-- A new key comes last. -/
theorem insert_of_not_mem {α β : Type} [BEq α] [LawfulBEq α] {key : α} (value : β)
    {pairs : List (α × β)} (h : key ∉ pairs.map Prod.fst) :
    insert key value pairs = pairs ++ [(key, value)] := by
  induction pairs with
  | nil => rfl
  | cons p rest ih =>
    rw [List.map_cons, List.mem_cons, not_or] at h
    obtain ⟨hne, hrest⟩ := h
    have hkey : (p.1 == key) = false := by simpa using fun e => hne e.symm
    rw [insert, hkey, ih hrest]
    rfl

theorem insertAll_of_nodup {α β : Type} [BEq α] [LawfulBEq α] {old new : List (α × β)}
    (h : ((old ++ new).map Prod.fst).Nodup) : insertAll old new = old ++ new := by
  induction new generalizing old with
  | nil => simp [insertAll]
  | cons p rest ih =>
    have hp : p.1 ∉ old.map Prod.fst := by
      intro hmem
      rw [List.map_append, List.nodup_append] at h
      exact h.2.2 p.1 hmem p.1 (by simp) rfl
    have hstep : insertAll old (p :: rest) = insertAll (insert p.1 p.2 old) rest := rfl
    rw [hstep, insert_of_not_mem p.2 hp, ih (by simpa using h), List.append_assoc]
    rfl

/-- Pairs whose keys differ stand for themselves. -/
theorem ofPairs_of_nodup {α β : Type} [BEq α] [LawfulBEq α] {pairs : List (α × β)}
    (h : (pairs.map Prod.fst).Nodup) : ofPairs pairs = pairs :=
  insertAll_of_nodup h

/-- A mapping with a pair added has no other pairs. -/
theorem mem_of_mem_insert {α β : Type} [BEq α] [LawfulBEq α] {key : α} {value : β}
    {pairs : List (α × β)} {p : α × β} (h : p ∈ insert key value pairs) :
    p = (key, value) ∨ p ∈ pairs := by
  induction pairs with
  | nil => exact .inl (List.mem_singleton.mp h)
  | cons q rest ih =>
    rw [insert] at h
    split at h
    · rename_i hkey
      obtain rfl | hrest := List.mem_cons.mp h
      · exact .inl (by rw [beq_iff_eq.mp hkey])
      · exact .inr (List.mem_cons_of_mem _ hrest)
    · obtain rfl | hrest := List.mem_cons.mp h
      · exact .inr List.mem_cons_self
      · exact (ih hrest).imp_right (List.mem_cons_of_mem _)

theorem mem_of_mem_insertAll {α β : Type} [BEq α] [LawfulBEq α] {old new : List (α × β)}
    {p : α × β} (h : p ∈ insertAll old new) : p ∈ old ∨ p ∈ new := by
  induction new generalizing old with
  | nil => exact .inl h
  | cons q rest ih =>
    obtain hold | hrest := ih h
    · obtain rfl | hold := mem_of_mem_insert hold
      · exact .inr List.mem_cons_self
      · exact .inl hold
    · exact .inr (List.mem_cons_of_mem _ hrest)

/-- A mapping with a pair added has its key, and the keys that it had. -/
theorem mem_keys_insert {α β : Type} [BEq α] [LawfulBEq α] {key other : α} {value : β}
    {pairs : List (α × β)} (h : other = key ∨ other ∈ pairs.map Prod.fst) :
    other ∈ (insert key value pairs).map Prod.fst := by
  induction pairs with
  | nil => simpa [insert] using h
  | cons q rest ih =>
    rw [insert]
    split
    · rename_i hkey
      rw [← beq_iff_eq.mp hkey] at h
      exact List.mem_cons.mpr (h.elim .inl List.mem_cons.mp)
    · rw [List.map_cons, List.mem_cons] at h ⊢
      obtain h | h | h := h
      · exact .inr (ih (.inl h))
      · exact .inl h
      · exact .inr (ih (.inr h))

theorem mem_keys_insertAll {α β : Type} [BEq α] [LawfulBEq α] {old new : List (α × β)} {key : α}
    (h : key ∈ old.map Prod.fst ∨ key ∈ new.map Prod.fst) :
    key ∈ (insertAll old new).map Prod.fst := by
  induction new generalizing old with
  | nil => exact h.resolve_right nofun
  | cons q rest ih =>
    apply ih
    obtain h | h := h
    · exact .inl (mem_keys_insert (.inr h))
    · exact (List.mem_cons.mp h).imp_left fun hkey => mem_keys_insert (.inl hkey)

/-- Values may be changed before they are added, or after. -/
theorem insertAll_map {α β γ : Type} [BEq α] (g : β → γ) (old new : List (α × β)) :
    insertAll (old.map fun p => (p.1, g p.2)) (new.map fun p => (p.1, g p.2)) =
      (insertAll old new).map fun p => (p.1, g p.2) := by
  have hinsert (key : α) (value : β) (pairs : List (α × β)) :
      insert key (g value) (pairs.map fun p => (p.1, g p.2)) =
        (insert key value pairs).map fun p => (p.1, g p.2) := by
    induction pairs with
    | nil => rfl
    | cons q rest ih =>
      rw [List.map_cons, insert, insert, ih]
      split <;> rfl
  induction new generalizing old with
  | nil => rfl
  | cons q rest ih =>
    show insertAll (insert q.1 (g q.2) _) _ = (insertAll (insert q.1 q.2 old) rest).map _
    rw [hinsert, ih]

section Filter

variable {α β : Type} [BEq α] [LawfulBEq α] (keep : α → Bool)

theorem filter_insert (key : α) (value : β) (pairs : List (α × β)) :
    (insert key value pairs).filter (fun p => keep p.1) =
      if keep key then insert key value (pairs.filter fun p => keep p.1)
      else pairs.filter fun p => keep p.1 := by
  induction pairs with
  | nil => cases hkey : keep key <;> simp [insert, hkey]
  | cons q rest ih =>
    rw [insert]
    split
    · rename_i hq
      obtain rfl := beq_iff_eq.mp hq
      cases hkey : keep q.1 <;> simp [insert, hkey]
    · rename_i hq
      rw [List.filter_cons, List.filter_cons, ih]
      cases hkeep : keep q.1 <;> cases hkey : keep key <;> simp [insert, hq]

/-- Keys may be picked from pairs before these are added, or after. -/
theorem filter_insertAll (old new : List (α × β)) :
    (insertAll old new).filter (fun p => keep p.1) =
      insertAll (old.filter fun p => keep p.1) (new.filter fun p => keep p.1) := by
  induction new generalizing old with
  | nil => rfl
  | cons q rest ih =>
    show (insertAll (insert q.1 q.2 old) rest).filter _ = _
    rw [ih, filter_insert, List.filter_cons]
    split <;> rfl

theorem lookup_filter {key : α} (hkey : keep key) (pairs : List (α × β)) :
    (pairs.filter fun p => keep p.1).lookup key = pairs.lookup key := by
  induction pairs with
  | nil => rfl
  | cons q rest ih =>
    rw [List.filter_cons, List.lookup_cons]
    split
    · rw [List.lookup_cons, ih]
    · rename_i hq
      have hne : (key == q.1) = false := by
        rw [beq_eq_false_iff_ne]
        rintro rfl
        exact hq hkey
      rw [hne, ih]

end Filter

end Assoc

end GrammarLoader
