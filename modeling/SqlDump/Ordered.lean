import SqlDump.Text.Basic

/-!
Maps from names to values that keep the order in which names were first put in.
-/

namespace SqlDump

abbrev Ordered (α : Type) := List (Text × α)

namespace Ordered

variable {α : Type}

def keys (m : Ordered α) : List Text := m.map (·.1)

def get? (m : Ordered α) (name : Text) : Option α := m.lookup name

def has (m : Ordered α) (name : Text) : Bool := (m.get? name).isSome

/-- Puts in a value. A name that is there keeps its place. -/
def set : Ordered α → Text → α → Ordered α
  | [], name, a => [(name, a)]
  | (k, b) :: m, name, a => if k = name then (k, a) :: m else (k, b) :: set m name a

/-- Changes the value of a name that is there. -/
def update : Ordered α → Text → (α → α) → Ordered α
  | [], _, _ => []
  | (k, b) :: m, name, f => if k = name then (k, f b) :: m else (k, b) :: update m name f

def erase (m : Ordered α) (name : Text) : Ordered α := m.filter (·.1 ≠ name)

/-- Adds to the list of a name, which starts empty. -/
def push {β : Type} (m : Ordered (List β)) (name : Text) (b : β) : Ordered (List β) :=
  m.set name ((m.get? name).getD [] ++ [b])

/-- The lists in order of the given pairs: repeated names keep their place and the last value. -/
def ofList (pairs : List (Text × α)) : Ordered α :=
  pairs.foldl (fun m (name, a) => m.set name a) []

@[simp] theorem get?_nil (name : Text) : get? ([] : Ordered α) name = none := rfl

theorem get?_set_self (m : Ordered α) (name : Text) (a : α) : (m.set name a).get? name = some a := by
  induction m with
  | nil => simp [set, get?]
  | cons p m ih =>
    obtain ⟨k, b⟩ := p
    by_cases h : k = name
    · simp [set, get?, h]
    · have h' : (name == k) = false := by simpa using fun e => h e.symm
      simpa [set, get?, h, List.lookup_cons, h'] using ih

theorem keys_update (m : Ordered α) (name : Text) (f : α → α) :
    (m.update name f).keys = m.keys := by
  induction m with
  | nil => rfl
  | cons p m ih =>
    obtain ⟨k, b⟩ := p
    by_cases h : k = name
    · simp [update, keys, h]
    · simpa [update, keys, h] using ih

theorem get?_set_of_ne (m : Ordered α) {name other : Text} (a : α) (h : other ≠ name) :
    (m.set name a).get? other = m.get? other := by
  have h' : (other == name) = false := by simpa using h
  induction m with
  | nil => simp [set, get?, List.lookup_cons, h']
  | cons p m ih =>
    obtain ⟨k, b⟩ := p
    by_cases hk : k = name
    · subst hk
      simp [set, get?, List.lookup_cons, h']
    · simp only [get?] at ih
      simp only [set, hk, if_false, get?, List.lookup_cons, ih]

theorem get?_update (m : Ordered α) (name other : Text) (f : α → α) :
    (m.update name f).get? other =
      if name = other then (m.get? other).map f else m.get? other := by
  induction m with
  | nil => simp [update]
  | cons p m ih =>
    obtain ⟨k, b⟩ := p
    simp only [get?] at ih
    by_cases hk : k = name
    · subst hk
      by_cases ho : other = k
      · simp [update, get?, ho]
      · have ho' : (other == k) = false := by simpa using ho
        have ho'' : ¬ k = other := fun e => ho e.symm
        simp [update, get?, List.lookup_cons, ho', ho'']
    · by_cases ho : other = k
      · subst ho
        have hk' : ¬ name = other := fun e => hk e.symm
        simp [update, get?, hk, hk']
      · have ho' : (other == k) = false := by simpa using ho
        simpa [update, get?, List.lookup_cons, hk, ho'] using ih

theorem keys_set (m : Ordered α) (name : Text) (a : α) :
    (m.set name a).keys = if name ∈ m.keys then m.keys else m.keys ++ [name] := by
  induction m with
  | nil => simp [set, keys]
  | cons p m ih =>
    obtain ⟨k, b⟩ := p
    simp only [keys] at ih
    by_cases h : k = name
    · simp [set, keys, h]
    · have h' : ¬ name = k := fun e => h e.symm
      by_cases hm : name ∈ m.map (·.1)
      · simpa [set, keys, h, h', hm] using ih
      · simpa [set, keys, h, h', hm] using ih

theorem nodup_keys_set {m : Ordered α} (unique : m.keys.Nodup) (name : Text) (a : α) :
    (m.set name a).keys.Nodup := by
  rw [keys_set]
  split
  · exact unique
  · rename_i h
    rw [List.nodup_append]
    refine ⟨unique, by simp, ?_⟩
    intro x hx y hy e
    simp only [List.mem_singleton] at hy
    exact h (hy ▸ e ▸ hx)

theorem mem_keys_set {m : Ordered α} {name other : Text} {a : α} :
    other ∈ (m.set name a).keys ↔ other ∈ m.keys ∨ other = name := by
  rw [keys_set]
  split
  · rename_i h
    exact ⟨Or.inl, fun o => o.elim id fun e => e ▸ h⟩
  · simp

theorem mem_of_get? {m : Ordered α} {name : Text} {a : α} (h : m.get? name = some a) :
    (name, a) ∈ m := by
  induction m with
  | nil => simp at h
  | cons p m ih =>
    obtain ⟨k, b⟩ := p
    by_cases hk : name = k
    · subst hk
      have : b = a := by simpa [get?] using h
      exact this ▸ List.mem_cons_self
    · have hk' : (name == k) = false := by simpa using hk
      simp only [get?, List.lookup_cons, hk'] at h
      exact List.mem_cons_of_mem _ (ih h)

theorem get?_eq_none_iff {m : Ordered α} {name : Text} : m.get? name = none ↔ name ∉ m.keys := by
  induction m with
  | nil => simp [keys]
  | cons p m ih =>
    obtain ⟨k, b⟩ := p
    by_cases hk : name = k
    · subst hk
      simp [get?, keys]
    · have hk' : (name == k) = false := by simpa using hk
      simp only [get?, keys] at ih
      simp only [get?, List.lookup_cons, hk', keys, List.map_cons, List.mem_cons, hk, false_or, ih]

theorem get?_of_mem {m : Ordered α} (unique : m.keys.Nodup) {name : Text} {a : α}
    (h : (name, a) ∈ m) : m.get? name = some a := by
  induction m with
  | nil => simp at h
  | cons p m ih =>
    obtain ⟨k, b⟩ := p
    obtain ⟨hk, unique⟩ := List.nodup_cons.mp unique
    rcases List.mem_cons.mp h with e | h
    · cases e
      simp [get?]
    · have hne : name ≠ k := fun e => hk (e ▸ List.mem_map_of_mem (f := (·.1)) h)
      have hne' : (name == k) = false := by simpa using hne
      simpa only [get?, List.lookup_cons, hne'] using ih unique h

theorem has_eq_true_iff {m : Ordered α} {name : Text} : m.has name = true ↔ name ∈ m.keys := by
  rw [has, Option.isSome_iff_ne_none, ne_eq, get?_eq_none_iff, Classical.not_not]

theorem get?_filter (m : Ordered α) (p : Text → Bool) (name : Text) :
    get? (m.filter fun entry => p entry.1) name = if p name then m.get? name else none := by
  induction m with
  | nil => simp
  | cons entry m ih =>
    obtain ⟨k, b⟩ := entry
    simp only [get?] at ih
    by_cases hk : name = k
    · subst hk
      by_cases hp : p name = true
      · simp [get?, List.filter, hp]
      · simpa [get?, List.filter, hp] using ih
    · have hk' : (name == k) = false := by simpa using hk
      by_cases hp : p k = true
      · simpa [get?, List.filter, hp, List.lookup_cons, hk'] using ih
      · simpa [get?, List.filter, hp, List.lookup_cons, hk'] using ih

theorem mem_keys_of_get? {m : Ordered α} {name : Text} {a : α} (h : m.get? name = some a) :
    name ∈ m.keys :=
  List.mem_map_of_mem (f := (·.1)) (mem_of_get? h)

theorem mem_update {m : Ordered α} {name : Text} {f : α → α} {entry : Text × α}
    (h : entry ∈ m.update name f) : entry ∈ m ∨ ∃ a, (name, a) ∈ m ∧ entry = (name, f a) := by
  induction m with
  | nil => cases h
  | cons first m ih =>
    obtain ⟨k, b⟩ := first
    by_cases hk : k = name
    · subst hk
      rw [update, if_pos rfl] at h
      rcases List.mem_cons.mp h with rfl | h
      · exact Or.inr ⟨b, List.mem_cons_self, rfl⟩
      · exact Or.inl (List.mem_cons_of_mem _ h)
    · rw [update, if_neg hk] at h
      rcases List.mem_cons.mp h with rfl | h
      · exact Or.inl List.mem_cons_self
      · rcases ih h with h | ⟨a, h, e⟩
        · exact Or.inl (List.mem_cons_of_mem _ h)
        · exact Or.inr ⟨a, List.mem_cons_of_mem _ h, e⟩

theorem mem_set {m : Ordered α} {name : Text} {a : α} {entry : Text × α}
    (h : entry ∈ m.set name a) : entry ∈ m ∨ entry = (name, a) := by
  induction m with
  | nil => exact Or.inr (List.mem_singleton.mp h)
  | cons first m ih =>
    obtain ⟨k, b⟩ := first
    by_cases hk : k = name
    · rw [set, if_pos hk] at h
      rcases List.mem_cons.mp h with rfl | h
      · exact Or.inr (by rw [hk])
      · exact Or.inl (List.mem_cons_of_mem _ h)
    · rw [set, if_neg hk] at h
      rcases List.mem_cons.mp h with rfl | h
      · exact Or.inl List.mem_cons_self
      · exact (ih h).imp (List.mem_cons_of_mem _) id

theorem set_of_not_mem {m : Ordered α} {name : Text} (a : α) (h : name ∉ m.keys) :
    m.set name a = m ++ [(name, a)] := by
  induction m with
  | nil => rfl
  | cons entry m ih =>
    obtain ⟨k, b⟩ := entry
    have hk : ¬ k = name := fun e => h (e ▸ List.mem_cons_self)
    rw [set, if_neg hk, ih fun hm => h (List.mem_cons_of_mem _ hm)]
    rfl

theorem foldl_set_of_nodup {pairs m : Ordered α} (h : (m ++ pairs).keys.Nodup) :
    pairs.foldl (fun m (name, a) => m.set name a) m = m ++ pairs := by
  induction pairs generalizing m with
  | nil => rw [List.foldl_nil, List.append_nil]
  | cons entry pairs ih =>
    obtain ⟨k, b⟩ := entry
    have hk : k ∉ m.keys := by
      rw [keys, List.map_append] at h
      intro hm
      exact (List.nodup_append.mp h).2.2 k hm k List.mem_cons_self rfl
    rw [List.foldl_cons]
    show pairs.foldl _ (set m k b) = _
    rw [set_of_not_mem b hk, ih]
    · simp
    · simpa using h

theorem update_of_not_mem {m : Ordered α} {name : Text} (f : α → α) (h : name ∉ m.keys) :
    m.update name f = m := by
  induction m with
  | nil => rfl
  | cons entry m ih =>
    obtain ⟨k, b⟩ := entry
    have hk : ¬ k = name := fun e => h (e ▸ List.mem_cons_self)
    rw [update, if_neg hk, ih fun hm => h (List.mem_cons_of_mem _ hm)]

theorem update_eq_map {m : Ordered α} (unique : m.keys.Nodup) (name : Text) (f : α → α) :
    m.update name f = m.map fun entry => (entry.1, if entry.1 = name then f entry.2 else entry.2) := by
  induction m with
  | nil => rfl
  | cons entry m ih =>
    obtain ⟨k, b⟩ := entry
    obtain ⟨hk, unique⟩ := List.nodup_cons.mp unique
    by_cases hname : k = name
    · subst hname
      have hrest : update m k f = m := update_of_not_mem f hk
      have hmap := ih unique
      rw [hrest] at hmap
      rw [update, if_pos rfl, List.map_cons, if_pos rfl, ← hmap]
    · rw [update, if_neg hname, ih unique, List.map_cons, if_neg hname]

theorem update_append_cons {first rest : Ordered α} {name : Text} (h : name ∉ first.keys) (a : α)
    (f : α → α) : update (first ++ (name, a) :: rest) name f = first ++ (name, f a) :: rest := by
  induction first with
  | nil => rw [List.nil_append, update, if_pos rfl, List.nil_append]
  | cons entry first ih =>
    obtain ⟨k, b⟩ := entry
    have hk : ¬ k = name := fun e => h (e ▸ List.mem_cons_self)
    rw [List.cons_append, update, if_neg hk, ih fun hm => h (List.mem_cons_of_mem _ hm)]
    rfl

end Ordered

end SqlDump
