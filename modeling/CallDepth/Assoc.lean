/-
# Association lists

Lists of keys with values, in order of first insertion. `Assoc.put` keeps one entry per key: it
replaces the value in place when the key is there and appends otherwise.

* `lookup_put`: after a `put`, the key has the new value and every other key its old one.
* `keys_put`: a `put` adds its key at the end unless it is there, so keys stay distinct.
* `mem_keys_iff`: the keys are those that have a value.
-/

namespace CallDepth.Assoc

variable {κ α : Type} [BEq κ]

/-- Set the value of a key: in place when the key is there, at the end otherwise. -/
def put (entries : List (κ × α)) (key : κ) (value : α) : List (κ × α) :=
  match entries with
  | [] => [(key, value)]
  | (k, v) :: rest => if k == key then (k, value) :: rest else (k, v) :: put rest key value

def keys (entries : List (κ × α)) : List κ :=
  entries.map (·.1)

theorem lookup_cons [LawfulBEq κ] (k key : κ) (value : α) (rest : List (κ × α)) :
    List.lookup k ((key, value) :: rest) = if k == key then some value else rest.lookup k := by
  rw [List.lookup_cons]
  cases k == key <;> rfl

theorem mem_keys_iff [LawfulBEq κ] {entries : List (κ × α)} {key : κ} :
    key ∈ keys entries ↔ ∃ value, entries.lookup key = some value := by
  induction entries with
  | nil => simp [keys]
  | cons entry rest ih =>
      obtain ⟨k, v⟩ := entry
      unfold keys at ih ⊢
      rw [List.map_cons, List.mem_cons, ih, lookup_cons]
      by_cases here : key = k <;> simp [here]

theorem not_mem_keys_of_lookup [LawfulBEq κ] {entries : List (κ × α)} {key : κ}
    (missing : entries.lookup key = none) : key ∉ keys entries := by
  intro member
  obtain ⟨value, found⟩ := mem_keys_iff.1 member
  rw [missing] at found
  cases found

/-- A key that is set has its value, and every other key keeps its own. -/
theorem lookup_put [LawfulBEq κ] (entries : List (κ × α)) (key : κ) (value : α) (k : κ) :
    (put entries key value).lookup k = if k == key then some value else entries.lookup k := by
  induction entries with
  | nil => simp [put, lookup_cons]
  | cons entry rest ih =>
      obtain ⟨k', v'⟩ := entry
      by_cases here : k' = key
      · by_cases h : k = key <;> simp [put, lookup_cons, here, h]
      · by_cases h : k = k'
        · subst h
          simp [put, here]
        · simp [put, lookup_cons, here, h, ih]

/-- A new key comes last, and a known one stays where it is. -/
theorem keys_put [LawfulBEq κ] (entries : List (κ × α)) (key : κ) (value : α) :
    keys (put entries key value) =
      if (keys entries).contains key then keys entries else keys entries ++ [key] := by
  induction entries with
  | nil => simp [put, keys]
  | cons entry rest ih =>
      obtain ⟨k, v⟩ := entry
      by_cases here : k = key
      · simp [put, keys, here]
      · have away : ¬ key = k := fun h => here h.symm
        by_cases later : key ∈ keys rest <;> simp_all [put, keys]

theorem nodup_keys_put [LawfulBEq κ] {entries : List (κ × α)} (distinct : (keys entries).Nodup)
    (key : κ) (value : α) : (keys (put entries key value)).Nodup := by
  rw [keys_put]
  split
  · exact distinct
  · rename_i fresh
    refine List.nodup_append.2 ⟨distinct, by simp, ?_⟩
    rintro known listed _ single rfl
    obtain rfl := List.mem_singleton.1 single
    exact fresh (by simpa using listed)

theorem mem_put {entries : List (κ × α)} {key : κ} {value : α} {entry : κ × α}
    (inside : entry ∈ put entries key value) : entry ∈ entries ∨ entry.2 = value := by
  induction entries with
  | nil =>
      obtain rfl := List.mem_singleton.1 inside
      exact .inr rfl
  | cons first rest ih =>
      obtain ⟨k, v⟩ := first
      rw [put] at inside
      split at inside
      · rcases List.mem_cons.1 inside with rfl | later
        · exact .inr rfl
        · exact .inl (List.mem_cons_of_mem _ later)
      · rcases List.mem_cons.1 inside with rfl | later
        · exact .inl List.mem_cons_self
        · exact (ih later).imp_left (List.mem_cons_of_mem _)

end CallDepth.Assoc
