import Mathlib

/-! Finite maps as association lists.

An ordered map (or set) of a program is modelled by a list of key–value pairs
in which the first pair with a key holds that key's value.  Iteration order is
not part of the model: the whole-map operations `retain`, `mapValues` and the
sum of the values do not depend on it, and a model that iterates in key order
sorts the pairs first.
-/

namespace KeyMap

variable {κ ν : Type} [DecidableEq κ]

/-- The value stored under a key. -/
def get? : List (κ × ν) → κ → Option ν
  | [], _ => none
  | (key, value) :: rest, wanted => if key = wanted then some value else get? rest wanted

/-- Store a value under a key, replacing the first pair with that key or appending. -/
def insert : List (κ × ν) → κ → ν → List (κ × ν)
  | [], key, value => [(key, value)]
  | (key', value') :: rest, key, value =>
      if key' = key then (key, value) :: rest else (key', value') :: insert rest key value

/-- Keep the pairs whose key satisfies a predicate. -/
def retain (entries : List (κ × ν)) (keep : κ → Bool) : List (κ × ν) :=
  entries.filter (fun entry => keep entry.1)

/-- Change every value, knowing its key. -/
def mapValues (entries : List (κ × ν)) (change : κ → ν → ν) : List (κ × ν) :=
  entries.map fun entry => (entry.1, change entry.1 entry.2)

/-- The sum of the stored values. -/
def sumValues (entries : List (κ × Nat)) : Nat :=
  (entries.map Prod.snd).sum

@[simp] theorem get?_nil (key : κ) : get? ([] : List (κ × ν)) key = none := rfl

@[simp] theorem get?_insert_self (entries : List (κ × ν)) (key : κ) (value : ν) :
    get? (insert entries key value) key = some value := by
  induction entries with
  | nil => simp [insert, get?]
  | cons entry rest ih =>
      obtain ⟨key', value'⟩ := entry
      by_cases same : key' = key
      · simp [insert, get?, same]
      · simp [insert, get?, same, ih]

theorem get?_insert_of_ne (entries : List (κ × ν)) {key wanted : κ} (value : ν)
    (other : key ≠ wanted) : get? (insert entries key value) wanted = get? entries wanted := by
  induction entries with
  | nil => simp [insert, get?, other]
  | cons entry rest ih =>
      obtain ⟨key', value'⟩ := entry
      by_cases same : key' = key
      · subst same
        simp [insert, get?, other]
      · simp [insert, get?, same, ih]

theorem get?_insert (entries : List (κ × ν)) (key wanted : κ) (value : ν) :
    get? (insert entries key value) wanted =
      if key = wanted then some value else get? entries wanted := by
  by_cases same : key = wanted
  · subst same
    simp
  · simp [get?_insert_of_ne entries value same, same]

theorem get?_retain (entries : List (κ × ν)) (keep : κ → Bool) (wanted : κ) :
    get? (retain entries keep) wanted = if keep wanted then get? entries wanted else none := by
  induction entries with
  | nil => simp [retain, get?]
  | cons entry rest ih =>
      obtain ⟨key, value⟩ := entry
      simp only [retain, List.filter_cons] at ih ⊢
      by_cases same : key = wanted
      · subst same
        cases kept : keep key <;> simp [get?, kept, ih]
      · cases kept : keep key <;> simp [get?, same, ih]

theorem get?_eq_none_iff {entries : List (κ × ν)} {key : κ} :
    get? entries key = none ↔ key ∉ entries.map Prod.fst := by
  induction entries with
  | nil => simp
  | cons entry rest ih =>
      obtain ⟨key', value⟩ := entry
      by_cases same : key' = key
      · simp [get?, same]
      · simp [get?, same, ih, Ne.symm same]

theorem mem_keys_of_get? {entries : List (κ × ν)} {key : κ} {value : ν}
    (found : get? entries key = some value) : key ∈ entries.map Prod.fst := by
  by_contra absent
  rw [get?_eq_none_iff.mpr absent] at found
  cases found

theorem insert_of_get?_eq_none {entries : List (κ × ν)} {key : κ} (value : ν)
    (absent : get? entries key = none) : insert entries key value = entries ++ [(key, value)] := by
  induction entries with
  | nil => rfl
  | cons entry rest ih =>
      obtain ⟨key', value'⟩ := entry
      have other : key' ≠ key := by
        intro same
        simp [get?, same] at absent
      simp only [get?, other, if_false] at absent
      simp [insert, other, ih absent]

/-- Storing the value a key already holds changes nothing. -/
theorem insert_of_get?_eq_some {entries : List (κ × ν)} {key : κ} {value : ν}
    (found : get? entries key = some value) : insert entries key value = entries := by
  induction entries with
  | nil => cases found
  | cons entry rest ih =>
      obtain ⟨key', value'⟩ := entry
      by_cases same : key' = key
      · simp only [get?, same, if_true, Option.some.injEq] at found
        simp [insert, same, found]
      · simp only [get?, same, if_false] at found
        simp [insert, same, ih found]

/-- Inserting a new key adds its value to the sum; replacing one swaps the old value for the new. -/
theorem sumValues_insert (entries : List (κ × Nat)) (key : κ) (value : Nat) :
    sumValues (insert entries key value) + (get? entries key).getD 0 = sumValues entries + value := by
  induction entries with
  | nil => simp [insert, get?, sumValues]
  | cons entry rest ih =>
      obtain ⟨key', value'⟩ := entry
      by_cases same : key' = key
      · simp only [insert, get?, same, if_true, Option.getD_some, sumValues, List.map_cons,
          List.sum_cons]
        omega
      · simp only [insert, get?, same, if_false, sumValues, List.map_cons, List.sum_cons] at ih ⊢
        omega

theorem get?_le_sumValues (entries : List (κ × Nat)) (key : κ) :
    (get? entries key).getD 0 ≤ sumValues entries := by
  induction entries with
  | nil => simp [get?]
  | cons entry rest ih =>
      obtain ⟨key', value⟩ := entry
      simp only [get?, sumValues, List.map_cons, List.sum_cons] at ih ⊢
      split
      · simp
      · omega

/-- Inserting adds the weight of the new value and drops that of the value it replaces. -/
theorem sum_map_insert (weight : ν → Nat) (entries : List (κ × ν)) (key : κ) (value : ν) :
    ((insert entries key value).map fun entry => weight entry.2).sum +
        ((get? entries key).map weight).getD 0 =
      (entries.map fun entry => weight entry.2).sum + weight value := by
  induction entries with
  | nil => simp [insert, get?]
  | cons entry rest ih =>
      obtain ⟨key', value'⟩ := entry
      by_cases same : key' = key
      · simp only [insert, get?, same, if_true, Option.map_some, Option.getD_some, List.map_cons,
          List.sum_cons]
        omega
      · simp only [insert, get?, same, if_false, List.map_cons, List.sum_cons] at ih ⊢
        omega

omit [DecidableEq κ] in
theorem sum_map_retain_le (weight : ν → Nat) (entries : List (κ × ν)) (keep : κ → Bool) :
    ((retain entries keep).map fun entry => weight entry.2).sum ≤
      (entries.map fun entry => weight entry.2).sum :=
  (List.filter_sublist.map _).sum_le_sum fun _ _ => Nat.zero_le _

/-- Removing a key drops at least the weight of its value. -/
theorem sum_map_retain_ne (weight : ν → Nat) (entries : List (κ × ν)) (key : κ) :
    ((retain entries fun other => other != key).map fun entry => weight entry.2).sum +
        ((get? entries key).map weight).getD 0 ≤
      (entries.map fun entry => weight entry.2).sum := by
  induction entries with
  | nil => simp [retain, get?]
  | cons entry rest ih =>
      obtain ⟨key', value'⟩ := entry
      by_cases same : key' = key
      · have rest_le := sum_map_retain_le weight rest fun other => other != key
        simp only [retain] at rest_le
        simp only [retain, List.filter_cons, get?, same, bne_self_eq_false, if_true,
          Option.map_some, Option.getD_some, List.map_cons, List.sum_cons]
        simp only [Bool.false_eq_true, if_false]
        omega
      · simp only [retain, get?, same, if_false] at ih ⊢
        simp only [List.filter_cons, bne_iff_ne, ne_eq, same, not_false_eq_true, if_true,
          List.map_cons, List.sum_cons]
        omega

theorem get?_of_mem {entries : List (κ × ν)} (distinct : (entries.map Prod.fst).Nodup) {key : κ}
    {value : ν} (member : (key, value) ∈ entries) : get? entries key = some value := by
  induction entries with
  | nil => simp at member
  | cons entry rest ih =>
      obtain ⟨key', value'⟩ := entry
      simp only [List.map_cons, List.nodup_cons] at distinct
      rcases List.mem_cons.mp member with same | later
      · cases same
        simp [get?]
      · -- the key is in the rest, so it is not the first key
        have other : key' ≠ key := by
          rintro rfl
          exact distinct.1 (List.mem_map.mpr ⟨_, later, rfl⟩)
        simp [get?, other, ih distinct.2 later]

omit [DecidableEq κ] in
theorem nodup_keys_filter {entries : List (κ × ν)} (distinct : (entries.map Prod.fst).Nodup)
    (keep : κ × ν → Bool) : ((entries.filter keep).map Prod.fst).Nodup :=
  distinct.sublist (List.filter_sublist.map _)

/-- The keys after an insert: the same keys, or the new one last. -/
theorem keys_insert (entries : List (κ × ν)) (key : κ) (value : ν) :
    (insert entries key value).map Prod.fst =
      if key ∈ entries.map Prod.fst then entries.map Prod.fst else entries.map Prod.fst ++ [key] := by
  induction entries with
  | nil => simp [insert]
  | cons entry rest ih =>
      obtain ⟨key', value'⟩ := entry
      by_cases same : key' = key
      · simp [insert, same]
      · have other : key ≠ key' := Ne.symm same
        simp only [insert, same, if_false, List.map_cons, ih, List.mem_cons, other, false_or]
        split <;> simp

theorem nodup_keys_insert {entries : List (κ × ν)} (distinct : (entries.map Prod.fst).Nodup)
    (key : κ) (value : ν) : ((insert entries key value).map Prod.fst).Nodup := by
  rw [keys_insert]
  split
  · exact distinct
  · next fresh => exact distinct.append (List.nodup_singleton key) (by simpa using fresh)

theorem length_insert (entries : List (κ × ν)) (key : κ) (value : ν) :
    (insert entries key value).length =
      if key ∈ entries.map Prod.fst then entries.length else entries.length + 1 := by
  have keys := congrArg List.length (keys_insert entries key value)
  simp only [List.length_map] at keys
  rw [keys]
  split <;> simp

theorem length_insert_of_get? {entries : List (κ × ν)} {key : κ} {value : ν}
    (found : get? entries key = some value) (stored : ν) :
    (insert entries key stored).length = entries.length := by
  have member : key ∈ entries.map Prod.fst := by
    by_contra absent
    rw [get?_eq_none_iff.mpr absent] at found
    cases found
  simp [length_insert, member]

theorem length_insert_le (entries : List (κ × ν)) (key : κ) (value : ν) :
    (insert entries key value).length ≤ entries.length + 1 := by
  rw [length_insert]
  split <;> omega

omit [DecidableEq κ] in
theorem keys_retain (entries : List (κ × ν)) (keep : κ → Bool) :
    (retain entries keep).map Prod.fst = (entries.map Prod.fst).filter keep := by
  simp [retain, List.filter_map, Function.comp_def]

omit [DecidableEq κ] in
theorem nodup_keys_retain {entries : List (κ × ν)} (distinct : (entries.map Prod.fst).Nodup)
    (keep : κ → Bool) : ((retain entries keep).map Prod.fst).Nodup := by
  rw [keys_retain]
  exact distinct.filter keep

/-- Removing a key that is present drops exactly one pair. -/
theorem length_retain_ne {entries : List (κ × ν)} (distinct : (entries.map Prod.fst).Nodup)
    {key : κ} (member : key ∈ entries.map Prod.fst) :
    (retain entries fun other => other != key).length + 1 = entries.length := by
  have keys := congrArg List.length (keys_retain entries fun other => other != key)
  simp only [List.length_map] at keys
  have erased : (entries.map Prod.fst).erase key =
      (entries.map Prod.fst).filter fun other => other != key := by
    rw [distinct.erase_eq_filter]
  have present : 0 < (entries.map Prod.fst).length := List.length_pos_of_mem member
  rw [keys, ← erased, List.length_erase_of_mem member]
  rw [List.length_map] at present ⊢
  omega

omit [DecidableEq κ] in
@[simp] theorem keys_mapValues (entries : List (κ × ν)) (change : κ → ν → ν) :
    (mapValues entries change).map Prod.fst = entries.map Prod.fst := by
  simp [mapValues, Function.comp_def]

theorem get?_mapValues (entries : List (κ × ν)) (change : κ → ν → ν) (key : κ) :
    get? (mapValues entries change) key = (get? entries key).map (change key) := by
  induction entries with
  | nil => rfl
  | cons entry rest ih =>
      obtain ⟨key', value⟩ := entry
      by_cases same : key' = key
      · subst same
        simp [mapValues, get?]
      · simpa [mapValues, get?, same] using ih

theorem nodup_keys_foldl_insert (keys : List κ) {entries : List (κ × ν)}
    (distinct : (entries.map Prod.fst).Nodup) (value : ν) :
    ((keys.foldl (fun entries key => insert entries key value) entries).map Prod.fst).Nodup := by
  induction keys generalizing entries with
  | nil => exact distinct
  | cons first rest ih => exact ih (nodup_keys_insert distinct first value)

theorem length_foldl_insert_le (keys : List κ) (entries : List (κ × ν)) (value : ν) :
    (keys.foldl (fun entries key => insert entries key value) entries).length ≤
      entries.length + keys.length := by
  induction keys generalizing entries with
  | nil => simp
  | cons first rest ih =>
      have step := length_insert_le entries first value
      have later := ih (insert entries first value)
      simp only [List.foldl_cons, List.length_cons]
      omega

end KeyMap
