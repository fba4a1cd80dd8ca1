import Mathlib.Data.List.Nodup
import Mathlib.Logic.Function.Basic

/-!
# `ThinrAgent.Std.Registry`: a map from names to values, written by name

A registry binds a name to at most one value, and the last write wins. `bindAll` writes a list
of bindings in order, `eraseAll` unbinds a list of names, and `replace` takes the names of an
older list out before it writes a newer one. The lemmas say what a name is bound to afterwards,
by whether it is in the lists: a name of the newer list does not depend on what was there before.

`Writing` is what a run that binds a list of entries may leave when it is stopped. It binds them
in order, and the entry it was on may have any value that `P` allows in place of the whole one.
-/

set_option autoImplicit false

namespace ThinrAgent

/-- A map from names to values, with nothing at the names that are not bound. -/
def Registry (κ ν : Type) := κ → Option ν

namespace Registry

variable {κ ν : Type} [DecidableEq κ]

/-- The registry in which no name is bound. -/
def empty : Registry κ ν := fun _ => none

/-- Bind a name, whatever it was bound to. -/
def bind (m : Registry κ ν) (k : κ) (v : ν) : Registry κ ν := Function.update m k (some v)

/-- Unbind a name, whatever it was bound to. -/
def erase (m : Registry κ ν) (k : κ) : Registry κ ν := Function.update m k none

/-- Bind each entry of a list, in its order, so that of two entries with one name the later one
stays. -/
def bindAll (m : Registry κ ν) (entries : List (κ × ν)) : Registry κ ν :=
  entries.foldl (fun m e => m.bind e.1 e.2) m

/-- Unbind each name of a list, one after another. A name that is not bound is skipped. -/
def eraseAll (m : Registry κ ν) (names : List κ) : Registry κ ν := names.foldl erase m

/-- Take the old names out and bind the new entries. -/
def replace (m : Registry κ ν) (old : List κ) (entries : List (κ × ν)) : Registry κ ν :=
  (m.eraseAll old).bindAll entries

/-- The name that was written has the value. -/
theorem bind_self (m : Registry κ ν) (k : κ) (v : ν) : m.bind k v k = some v :=
  Function.update_self ..

/-- A write leaves the other names as they are. -/
theorem bind_of_ne (m : Registry κ ν) {k k' : κ} (v : ν) (h : k' ≠ k) : m.bind k v k' = m k' :=
  Function.update_of_ne h _ _

/-- Two lists that are written after each other are one. -/
theorem bindAll_append (m : Registry κ ν) (xs ys : List (κ × ν)) :
    m.bindAll (xs ++ ys) = (m.bindAll xs).bindAll ys :=
  List.foldl_append

/-- A name without an entry keeps its value. -/
theorem bindAll_of_notMem (m : Registry κ ν) {entries : List (κ × ν)} {k : κ}
    (h : k ∉ entries.map Prod.fst) : m.bindAll entries k = m k := by
  induction entries generalizing m with
  | nil => rfl
  | cons e rest ih =>
    simp only [List.map_cons, List.mem_cons, not_or] at h
    show (m.bind e.1 e.2).bindAll rest k = m k
    rw [ih _ h.2]
    exact bind_of_ne _ _ h.1

/-- A name with an entry is bound to the value of one, which does not depend on the map. -/
theorem bindAll_of_mem (m m' : Registry κ ν) {entries : List (κ × ν)} {k : κ}
    (h : k ∈ entries.map Prod.fst) :
    ∃ v, (k, v) ∈ entries ∧ m.bindAll entries k = some v ∧ m'.bindAll entries k = some v := by
  induction entries generalizing m m' with
  | nil => simp at h
  | cons e rest ih =>
    by_cases hrest : k ∈ rest.map Prod.fst
    · obtain ⟨v, hv, hm, hm'⟩ := ih (m.bind e.1 e.2) (m'.bind e.1 e.2) hrest
      exact ⟨v, List.mem_cons_of_mem _ hv, hm, hm'⟩
    · -- The first entry is the only one for the name.
      have hk : k = e.1 := by simpa [hrest] using h
      subst hk
      have hwrite : ∀ n : Registry κ ν, n.bindAll (e :: rest) e.1 = some e.2 := by
        intro n
        show (n.bind e.1 e.2).bindAll rest e.1 = some e.2
        rw [bindAll_of_notMem _ hrest]
        exact bind_self ..
      exact ⟨e.2, List.mem_cons_self, hwrite m, hwrite m'⟩

/-- A name of the list does not depend on what was there before. -/
theorem bindAll_eq_of_mem (m m' : Registry κ ν) {entries : List (κ × ν)} {k : κ}
    (h : k ∈ entries.map Prod.fst) : m.bindAll entries k = m'.bindAll entries k := by
  obtain ⟨v, -, hm, hm'⟩ := bindAll_of_mem m m' h
  rw [hm, hm']

/-- A name outside the list keeps its value. -/
theorem eraseAll_of_notMem (m : Registry κ ν) {names : List κ} {k : κ} (h : k ∉ names) :
    m.eraseAll names k = m k := by
  induction names generalizing m with
  | nil => rfl
  | cons n rest ih =>
    simp only [List.mem_cons, not_or] at h
    show (m.erase n).eraseAll rest k = m k
    rw [ih _ h.2]
    exact Function.update_of_ne h.1 _ _

/-- A name of the list is unbound afterwards, wherever it stands in the list. -/
theorem eraseAll_of_mem (m : Registry κ ν) {names : List κ} {k : κ} (h : k ∈ names) :
    m.eraseAll names k = none := by
  induction names generalizing m with
  | nil => simp at h
  | cons n rest ih =>
    show (m.erase n).eraseAll rest k = none
    by_cases hrest : k ∈ rest
    · exact ih _ hrest
    · rw [eraseAll_of_notMem _ hrest, show k = n by simpa [hrest] using h]
      exact Function.update_self ..

/-- A name of the newer list has the value that the list gives it, whatever was there before. -/
theorem replace_of_mem (m : Registry κ ν) (old : List κ) {entries : List (κ × ν)} {k : κ}
    (h : k ∈ entries.map Prod.fst) : m.replace old entries k = empty.bindAll entries k :=
  bindAll_eq_of_mem _ _ h

/-- A name of the older list only is unbound. -/
theorem replace_of_mem_old (m : Registry κ ν) {old : List κ} {entries : List (κ × ν)} {k : κ}
    (h : k ∉ entries.map Prod.fst) (hold : k ∈ old) : m.replace old entries k = none := by
  rw [replace, bindAll_of_notMem _ h, eraseAll_of_mem _ hold]

/-- A name of neither list keeps its value. -/
theorem replace_of_notMem (m : Registry κ ν) {old : List κ} {entries : List (κ × ν)} {k : κ}
    (h : k ∉ entries.map Prod.fst) (hold : k ∉ old) : m.replace old entries k = m k := by
  rw [replace, bindAll_of_notMem _ h, eraseAll_of_notMem _ hold]

/-- When no two entries have the same name, each name is bound to its entry. -/
theorem bindAll_of_nodup (m : Registry κ ν) {entries : List (κ × ν)} {k : κ} {v : ν}
    (hnodup : (entries.map Prod.fst).Nodup) (h : (k, v) ∈ entries) :
    m.bindAll entries k = some v := by
  obtain ⟨u, hu, hm, -⟩ := bindAll_of_mem m m (List.mem_map_of_mem (f := Prod.fst) h)
  have heq : (k, u) = (k, v) := List.inj_on_of_nodup_map hnodup hu h rfl
  rw [hm, (Prod.mk.inj heq).2]

/-- The order of entries with different names plays no part. -/
theorem bindAll_perm (m : Registry κ ν) {entries entries' : List (κ × ν)}
    (hperm : entries.Perm entries') (hnodup : (entries.map Prod.fst).Nodup) :
    m.bindAll entries = m.bindAll entries' := by
  have hkeys := hperm.map Prod.fst
  funext k
  by_cases h : k ∈ entries.map Prod.fst
  · obtain ⟨⟨k, v⟩, hentry, rfl⟩ := List.mem_map.mp h
    rw [bindAll_of_nodup m hnodup hentry,
      bindAll_of_nodup m (hkeys.nodup_iff.mp hnodup) (hperm.mem_iff.mp hentry)]
  · rw [bindAll_of_notMem m h, bindAll_of_notMem m fun h' => h (hkeys.mem_iff.mpr h')]

/-- To replace the entries by themselves changes nothing. -/
theorem replace_replace (m : Registry κ ν) (old : List κ) (entries : List (κ × ν)) :
    (m.replace old entries).replace (entries.map Prod.fst) entries = m.replace old entries := by
  funext k
  by_cases h : k ∈ entries.map Prod.fst
  · rw [replace_of_mem _ _ h, replace_of_mem _ _ h]
  · exact replace_of_notMem _ h h

/-! ### A run that is stopped -/

/-- A run that has bound `i` entries, and may be on the next one. -/
inductive Writing (P : ν → ν → Prop) (m : Registry κ ν) (entries : List (κ × ν)) :
    Nat → Registry κ ν → Prop where
  | between (i : Nat) : Writing P m entries i (m.bindAll (entries.take i))
  | during {i : Nat} {k : κ} {v part : ν} (h : entries[i]? = some (k, v)) (hpart : P v part) :
      Writing P m entries i ((m.bindAll (entries.take i)).bind k part)

section Writing
variable {P : ν → ν → Prop} {m s : Registry κ ν} {xs ys : List (κ × ν)} {i : Nat} {k : κ} {v : ν}

/-- The entries that come first are bound when the run is past them. -/
theorem Writing.of_done (h : Writing P m (xs ++ ys) i s) (hi : xs.length ≤ i)
    (hk : k ∉ ys.map Prod.fst) : s k = m.bindAll xs k := by
  have hdone : m.bindAll ((xs ++ ys).take i) k = m.bindAll xs k := by
    rw [List.take_append, List.take_of_length_le hi, bindAll_append]
    refine bindAll_of_notMem _ fun hmem => hk ?_
    exact (List.take_sublist _ _).map Prod.fst |>.subset hmem
  cases h with
  | between => exact hdone
  | @during k' v' part hentry hpart =>
    rw [List.getElem?_append_right hi] at hentry
    have hne : k ≠ k' := by
      rintro rfl
      exact hk (List.mem_map_of_mem (f := Prod.fst) (List.mem_of_getElem? hentry))
    rw [bind_of_ne _ _ hne]
    exact hdone

/-- A name is untouched as long as the run is at entries for other names. -/
theorem Writing.of_pending (h : Writing P m (xs ++ ys) i s) (hi : i < xs.length)
    (hk : k ∉ xs.map Prod.fst) : s k = m k := by
  have hkept : m.bindAll ((xs ++ ys).take i) k = m k := by
    rw [List.take_append_of_le_length (by omega)]
    refine bindAll_of_notMem _ fun hmem => hk ?_
    exact (List.take_sublist _ _).map Prod.fst |>.subset hmem
  cases h with
  | between => exact hkept
  | @during k' v' part hentry hpart =>
    rw [List.getElem?_append_left hi] at hentry
    have hne : k ≠ k' := by
      rintro rfl
      exact hk (List.mem_map_of_mem (f := Prod.fst) (List.mem_of_getElem? hentry))
    rw [bind_of_ne _ _ hne]
    exact hkept

/-- The last name has its old value until the run is past the other entries. Then it may also have
the new value, or what is there while that is being written. -/
theorem Writing.last (h : Writing P m (xs ++ [(k, v)]) i s) (hk : k ∉ xs.map Prod.fst) :
    s k = m k ∨ xs.length ≤ i ∧ (s k = some v ∨ ∃ part, P v part ∧ s k = some part) := by
  by_cases hi : i < xs.length
  · exact .inl (h.of_pending hi hk)
  · have hle : xs.length ≤ i := by omega
    cases h with
    | between =>
      by_cases heq : i = xs.length
      · subst heq
        rw [List.take_left]
        exact .inl (bindAll_of_notMem _ hk)
      · rw [List.take_of_length_le (by simp; omega), bindAll_append]
        exact .inr ⟨hle, .inl (bind_self ..)⟩
    | @during k' v' part hentry hpart =>
      rw [List.getElem?_append_right hle, List.getElem?_singleton] at hentry
      split at hentry
      · obtain ⟨rfl, rfl⟩ := Prod.mk.inj (Option.some.inj hentry)
        exact .inr ⟨hle, .inr ⟨part, hpart, bind_self ..⟩⟩
      · cases hentry

end Writing

end Registry

end ThinrAgent
