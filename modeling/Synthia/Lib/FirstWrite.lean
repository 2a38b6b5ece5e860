import Mathlib.Data.List.AList
import Mathlib.Data.List.Basic
import Mathlib.Data.List.Induction
import Mathlib.Data.List.Nodup

/-!
# The first write under a key, and the last

A log that accepts a write when it has none under the same key and drops it
otherwise. What stands under a key is the first write that arrived with it, and it
stands there once.

A log that accepts everything is read the other way round: what counts under a key
is the latest write with it.
-/

namespace FirstWrite

variable {ω κ : Type*} [DecidableEq κ] (key : ω → κ)

/-- The log after a write has arrived. -/
def accept (log : List ω) (write : ω) : List ω :=
  if log.any (fun other => key other == key write) then log else log ++ [write]

/-- The write a key stands for. -/
def under (log : List ω) (k : κ) : Option ω := log.find? fun write => key write == k

variable {key}

/-- What an arriving write changes. -/
theorem under_accept (log : List ω) (write : ω) (k : κ) :
    under key (accept key log write) k =
      (under key log k).or (if key write = k then some write else none) := by
  simp only [accept, under]
  split
  · next hany =>
      obtain ⟨other, hother, hkey⟩ := List.any_eq_true.mp hany
      by_cases h : key write = k
      · -- the key is taken, so there is something under it already
        have hfound : (log.find? fun write => key write == k).isSome = true :=
          List.find?_isSome.mpr ⟨other, hother, by rw [beq_iff_eq.mp hkey, h, beq_self_eq_true]⟩
        obtain ⟨found, hfound⟩ := Option.isSome_iff_exists.mp hfound
        rw [hfound, Option.some_or]
      · rw [if_neg h, Option.or_none]
  · rw [List.find?_append]
    congr 1
    by_cases h : key write = k
    · simp [h]
    · simp [h]

theorem nodup_accept {log : List ω} (h : (log.map key).Nodup) (write : ω) :
    ((accept key log write).map key).Nodup := by
  simp only [accept]
  split
  · exact h
  · next hfresh =>
      rw [List.map_append, List.map_singleton]
      refine List.nodup_append_comm.mp (List.nodup_cons.mpr ⟨?_, h⟩)
      intro hmem
      obtain ⟨other, hother, hkey⟩ := List.mem_map.mp hmem
      exact hfresh (List.any_eq_true.mpr ⟨other, hother, by rw [hkey, beq_self_eq_true]⟩)

theorem mem_accept {log : List ω} {write other : ω} (h : other ∈ accept key log write) :
    other ∈ log ∨ other = write := by
  simp only [accept] at h
  split at h
  · exact Or.inl h
  · simpa using h

/-- Of the writes of one key at most one is in the log, and it is the one under it. -/
theorem countP_eq {log : List ω} {pred : ω → Bool} {k : κ} (h : (log.map key).Nodup)
    (hpred : ∀ write ∈ log, pred write = true → key write = k) :
    log.countP pred = if (under key log k).any pred then 1 else 0 := by
  induction log with
  | nil => rfl
  | cons write log ih =>
      rw [List.map_cons, List.nodup_cons] at h
      have ih := ih h.2 fun other hother => hpred other (List.mem_cons_of_mem _ hother)
      by_cases hkey : key write = k
      · -- nothing behind the write is under its key
        have hbehind : ∀ other ∈ log, ¬ pred other = true := by
          intro other hother hsat
          have hsame := hpred other (List.mem_cons_of_mem _ hother) hsat
          exact h.1 (List.mem_map.mpr ⟨other, hother, hsame.trans hkey.symm⟩)
        have hzero := List.countP_eq_zero.mpr hbehind
        simp [under, List.countP_cons, hzero, hkey]
      · have hnot : ¬ pred write = true := fun hsat => hkey (hpred write List.mem_cons_self hsat)
        have hunder : under key (write :: log) k = under key log k := by
          simp [under, hkey]
        rw [List.countP_cons_of_neg hnot, hunder, ih]

/-! ## The latest -/

variable (key) in
/-- The last write under a key. -/
def latest (log : List ω) (k : κ) : Option ω := (log.filter fun write => key write == k).getLast?

theorem latest_concat_self {log : List ω} {write : ω} {k : κ} (h : key write = k) :
    latest key (log ++ [write]) k = some write := by
  simp [latest, h]

theorem latest_concat_of_ne {log : List ω} {write : ω} {k : κ} (h : key write ≠ k) :
    latest key (log ++ [write]) k = latest key log k := by
  simp [latest, h]

theorem mem_of_latest {log : List ω} {write : ω} {k : κ} (h : latest key log k = some write) :
    write ∈ log ∧ key write = k := by
  have hmem := List.mem_filter.mp (List.mem_of_getLast? h)
  exact ⟨hmem.1, beq_iff_eq.mp hmem.2⟩

theorem latest_eq_none_iff {log : List ω} {k : κ} :
    latest key log k = none ↔ ∀ write ∈ log, key write ≠ k := by
  rw [latest, List.getLast?_eq_none_iff, List.filter_eq_nil_iff]
  simp

theorem latest_isSome {log : List ω} {write : ω} (h : write ∈ log) :
    ∃ last, latest key log (key write) = some last := by
  refine Option.ne_none_iff_exists'.mp fun hnone => ?_
  exact latest_eq_none_iff.mp hnone write h rfl

/-- The last write of a translated log is the last write, translated. -/
theorem latest_map {ω' : Type*} (translate : ω → ω') (key' : ω' → κ)
    (hkey : ∀ write, key' (translate write) = key write) (log : List ω) (k : κ) :
    latest key' (log.map translate) k = (latest key log k).map translate := by
  rw [latest, latest, List.filter_map, List.getLast?_map]
  congr 2
  refine List.filter_congr fun write _ => ?_
  simp only [Function.comp, hkey]

end FirstWrite

/-!
## Dictionaries built from entries

A dictionary built entry by entry holds one value a key, the last one given for it. Its
keys are the entries' keys, each once.
-/

namespace Dict

open FirstWrite

variable {κ β : Type} [DecidableEq κ]

/-- `{key: value for key, value in entries}`. -/
def ofEntries (entries : List (κ × β)) : AList fun _ : κ => β :=
  entries.foldl (fun dict entry => dict.insert entry.1 entry.2) ∅

theorem ofEntries_concat (entries : List (κ × β)) (entry : κ × β) :
    ofEntries (entries ++ [entry]) = (ofEntries entries).insert entry.1 entry.2 := by
  rw [ofEntries, List.foldl_append]
  rfl

theorem lookup_ofEntries (entries : List (κ × β)) (key : κ) :
    (ofEntries entries).lookup key = (latest Prod.fst entries key).map Prod.snd := by
  induction entries using List.reverseRecOn with
  | nil => rfl
  | append_singleton entries entry ih =>
      rw [ofEntries_concat]
      by_cases h : entry.1 = key
      · rw [latest_concat_self h, ← h, AList.lookup_insert]
        rfl
      · rw [latest_concat_of_ne h, AList.lookup_insert_ne (Ne.symm h), ih]

end Dict
