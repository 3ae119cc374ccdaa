/-!
# Bindings

What names stand for: a finite map from names, kept in increasing order of the names by code
point, so that the names can be listed in order, each once.

## Main definitions

* `Bindings`: the map;
* `Bindings.find?`, `Bindings.insert`, `Bindings.names`.

## Main results

* `Bindings.find?_insert`: looking up after a change.
-/

namespace Abacus

/-- A finite map from names, in increasing order of the names. -/
structure Bindings (α : Type) where
  entries : List (String × α)
  sorted : entries.Pairwise (fun a b => a.1 < b.1)

namespace Bindings

variable {α : Type}

/-- Nothing is bound. -/
def empty : Bindings α := ⟨[], .nil⟩

/-- Binds a name in a list in order, in place of what the name stood for. -/
def insertInto (name : String) (value : α) : List (String × α) → List (String × α)
  | [] => [(name, value)]
  | entry :: rest =>
    if name < entry.1 then (name, value) :: entry :: rest
    else if name = entry.1 then (name, value) :: rest
    else entry :: insertInto name value rest

theorem eq_or_mem_of_mem_insertInto {name : String} {value : α} {entries : List (String × α)}
    {x : String × α} (h : x ∈ insertInto name value entries) : x = (name, value) ∨ x ∈ entries := by
  induction entries with
  | nil => simpa [insertInto] using h
  | cons entry rest ih =>
    unfold insertInto at h
    split at h
    · simpa using h
    · split at h
      · rcases List.mem_cons.1 h with h | h
        · exact .inl h
        · exact .inr (List.mem_cons_of_mem _ h)
      · rcases List.mem_cons.1 h with h | h
        · exact .inr (h ▸ List.mem_cons_self)
        · exact (ih h).imp id (List.mem_cons_of_mem _)

theorem sorted_insertInto (name : String) (value : α) {entries : List (String × α)}
    (h : entries.Pairwise (fun a b => a.1 < b.1)) :
    (insertInto name value entries).Pairwise (fun a b => a.1 < b.1) := by
  induction entries with
  | nil => simp [insertInto]
  | cons entry rest ih =>
    obtain ⟨hentry, hrest⟩ := List.pairwise_cons.1 h
    unfold insertInto
    split
    · next hlt =>
      refine List.pairwise_cons.2 ⟨fun x hx => ?_, h⟩
      rcases List.mem_cons.1 hx with rfl | hx
      · exact hlt
      · exact String.lt_trans hlt (hentry x hx)
    · next hge =>
      split
      · next heq =>
        exact List.pairwise_cons.2 ⟨fun x hx => heq ▸ hentry x hx, hrest⟩
      · next hne =>
        refine List.pairwise_cons.2 ⟨fun x hx => ?_, ih hrest⟩
        rcases eq_or_mem_of_mem_insertInto hx with rfl | hx
        · refine Decidable.byContradiction fun hle => hne ?_
          exact String.le_antisymm (String.not_lt.1 hle) (String.not_lt.1 hge)
        · exact hentry x hx

/-- **Binds a name**, in place of what it stood for. -/
def insert (name : String) (value : α) (b : Bindings α) : Bindings α :=
  ⟨insertInto name value b.entries, sorted_insertInto name value b.sorted⟩

/-- What a name stands for in a list. -/
def lookUp (name : String) : List (String × α) → Option α
  | [] => none
  | entry :: rest => if name = entry.1 then some entry.2 else lookUp name rest

/-- What a name stands for, if it is bound. -/
def find? (b : Bindings α) (name : String) : Option α := lookUp name b.entries

/-- A name is bound. -/
def contains (b : Bindings α) (name : String) : Bool := (b.find? name).isSome

/-- The bound names, in increasing order. -/
def names (b : Bindings α) : List String := b.entries.map (·.1)

/-- Nothing is bound. -/
def isEmpty (b : Bindings α) : Bool := b.entries.isEmpty

/-- Binds names one after another; the last binding of a name holds. -/
def ofList (entries : List (String × α)) : Bindings α :=
  entries.foldl (fun b entry => b.insert entry.1 entry.2) empty

@[simp] theorem find?_empty (name : String) : (empty : Bindings α).find? name = none := rfl

theorem lookUp_insertInto (name other : String) (value : α) (entries : List (String × α)) :
    lookUp other (insertInto name value entries) =
      if other = name then some value else lookUp other entries := by
  induction entries with
  | nil => simp [insertInto, lookUp]
  | cons entry rest ih =>
    unfold insertInto
    split
    · simp [lookUp]
    · split
      · next heq => simp only [lookUp, ← heq]; split <;> simp_all
      · next hne =>
        by_cases hother : other = entry.1
        · have : other ≠ name := fun h => hne (h ▸ hother)
          simp [lookUp, hother, Ne.symm hne]
        · simp [lookUp, hother, ih]

/-- After a name is bound it stands for the new value, and every other name for what it did. -/
theorem find?_insert (b : Bindings α) (name other : String) (value : α) :
    (b.insert name value).find? other = if other = name then some value else b.find? other :=
  lookUp_insertInto name other value b.entries

/-- The names are strictly increasing. -/
theorem sorted_names (b : Bindings α) : b.names.Pairwise (· < ·) :=
  List.pairwise_map.2 b.sorted

end Bindings

end Abacus
