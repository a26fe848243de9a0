import FilesystemLab.Lib.WriteLog

/-!
# Ordered maps

`Std.ExtTreeMap` over keys whose order decides their equality: a map is the
values of its keys, and its list of entries is sorted.

`insertAll` inserts a list of entries, in order.  It is `WriteLog.overlay` to
the lookups (`getElem?_insertAll`), so what holds of a list of writes to a store
holds of a list of insertions into a map.
-/

namespace OrderedMap

open WriteLog

variable {K V : Type} [Ord K] [Std.TransOrd K] [Std.LawfulEqOrd K]
  [DecidableEq K]

/-- A lookup behind an insertion. -/
theorem getElem?_insert (m : Std.ExtTreeMap K V) (k a : K) (v : V) :
    (m.insert k v)[a]? = if k = a then some v else m[a]? := by
  rw [Std.ExtTreeMap.getElem?_insert]
  simp only [Std.compare_eq_iff_eq]

/-- A lookup behind a removal. -/
theorem getElem?_erase (m : Std.ExtTreeMap K V) (k a : K) :
    (m.erase k)[a]? = if k = a then none else m[a]? := by
  rw [Std.ExtTreeMap.getElem?_erase]
  simp only [Std.compare_eq_iff_eq]

/-- An insertion is an update of the lookups. -/
theorem getElem?_insert_eq (m : Std.ExtTreeMap K V) (k : K) (v : V) :
    (fun a => (m.insert k v)[a]?) =
      Function.update (fun a => m[a]?) k (some v) := by
  funext a
  rw [getElem?_insert, Function.update_apply]
  by_cases ha : k = a
  · rw [if_pos ha, if_pos ha.symm]
  · rw [if_neg ha, if_neg fun h => ha h.symm]

/-- A removal is an update of the lookups. -/
theorem getElem?_erase_eq (m : Std.ExtTreeMap K V) (k : K) :
    (fun a => (m.erase k)[a]?) = Function.update (fun a => m[a]?) k none := by
  funext a
  rw [getElem?_erase, Function.update_apply]
  by_cases ha : k = a
  · rw [if_pos ha, if_pos ha.symm]
  · rw [if_neg ha, if_neg fun h => ha h.symm]

/-- The map after some insertions, in order. -/
def insertAll (m : Std.ExtTreeMap K V) (ws : List (K × V)) :
    Std.ExtTreeMap K V :=
  ws.foldl (fun m w => m.insert w.1 w.2) m

omit [Std.LawfulEqOrd K] [DecidableEq K] in
@[simp] theorem insertAll_nil (m : Std.ExtTreeMap K V) : insertAll m [] = m := rfl

omit [Std.LawfulEqOrd K] [DecidableEq K] in
theorem insertAll_append (m : Std.ExtTreeMap K V) (ws vs : List (K × V)) :
    insertAll m (ws ++ vs) = insertAll (insertAll m ws) vs := by
  simp only [insertAll, List.foldl_append]

/-- Insertions are writes to the lookups. -/
theorem getElem?_insertAll (m : Std.ExtTreeMap K V) (ws : List (K × V)) (a : K) :
    (insertAll m ws)[a]? =
      overlay (fun k => m[k]?) (ws.map fun w => (w.1, some w.2)) a := by
  induction ws generalizing m with
  | nil => rfl
  | cons w ws ih =>
    rw [List.map_cons, overlay_cons, ← getElem?_insert_eq]
    exact ih (m.insert w.1 w.2)

/-- Insertions that are made twice, the second time with others behind them. -/
theorem insertAll_insertAll (m : Std.ExtTreeMap K V) (ws vs : List (K × V)) :
    insertAll (insertAll m ws) (ws ++ vs) = insertAll m (ws ++ vs) := by
  apply Std.ExtTreeMap.ext_getElem?
  intro a
  have hfirst : (fun k => (insertAll m ws)[k]?) =
      overlay (fun k => m[k]?) (ws.map fun w => (w.1, some w.2)) := by
    funext k
    exact getElem?_insertAll m ws k
  rw [getElem?_insertAll, getElem?_insertAll, hfirst, List.map_append,
    overlay_append, overlay_append, overlay_overlay_self]

end OrderedMap
