import FlowArtifact.Live.Component
import Mathlib.Data.List.Induction
import Mathlib.Data.List.Nodup

/-!
# Annotations of live components

An annotation is set in place if its name is there and appended otherwise, and it is
looked up under the first entry of its name, which is the one that is set.  A list
of names that repeat, as a document may give it, therefore behaves like a map.  The
names keep their order over every run, and from an empty bag they come in the order
in which they were first given, once each.
-/

namespace FlowArtifact

namespace Annotations

/-! ## Entries -/

section
variable {name other : QualifiedName} {value : Datum} {l : List (QualifiedName × Datum)}

theorem names_setEntry :
    (setEntry name value l).map (·.1) =
      if name ∈ l.map (·.1) then l.map (·.1) else l.map (·.1) ++ [name] := by
  induction l with
  | nil => rfl
  | cons e rest ih =>
      rw [setEntry]
      by_cases h : e.1 = name
      · have hmem : name ∈ (e :: rest).map (·.1) := by
          rw [List.map_cons, h]
          exact List.mem_cons_self
        rw [if_pos h, if_pos hmem, List.map_cons, List.map_cons]
      · have hmem : name ∈ (e :: rest).map (·.1) ↔ name ∈ rest.map (·.1) := by
          rw [List.map_cons, List.mem_cons, or_iff_right (Ne.symm h)]
        rw [if_neg h, List.map_cons, ih]
        by_cases hrest : name ∈ rest.map (·.1)
        · rw [if_pos hrest, if_pos (hmem.2 hrest), List.map_cons]
        · rw [if_neg hrest, if_neg (hrest ∘ hmem.1), List.map_cons, List.cons_append]

theorem lookup_setEntry_self : (setEntry name value l).lookup name = some value := by
  induction l with
  | nil => simp [setEntry]
  | cons e rest ih =>
      rw [setEntry]
      by_cases h : e.1 = name
      · rw [if_pos h, List.lookup_cons, beq_iff_eq.2 h.symm]
      · rw [if_neg h, List.lookup_cons, beq_false_of_ne (Ne.symm h), ih]

theorem lookup_setEntry_of_ne (hne : other ≠ name) :
    (setEntry name value l).lookup other = l.lookup other := by
  induction l with
  | nil => simp [setEntry, List.lookup_cons, beq_false_of_ne hne]
  | cons e rest ih =>
      rw [setEntry]
      by_cases h : e.1 = name
      · have hfirst : (other == e.1) = false := beq_false_of_ne (h ▸ hne)
        rw [if_pos h, List.lookup_cons, List.lookup_cons, hfirst]
      · rw [if_neg h, List.lookup_cons, List.lookup_cons, ih]

theorem lookup_eq_some_of_mem {e : QualifiedName × Datum} (hnodup : (l.map (·.1)).Nodup)
    (he : e ∈ l) : l.lookup e.1 = some e.2 := by
  induction l with
  | nil => cases he
  | cons first rest ih =>
      rw [List.map_cons, List.nodup_cons] at hnodup
      rw [List.lookup_cons]
      rcases List.mem_cons.1 he with rfl | he
      · rw [beq_self_eq_true]
      · have hne : e.1 ≠ first.1 := by
          intro heq
          exact hnodup.1 (heq ▸ List.mem_map_of_mem he)
        rw [beq_false_of_ne hne, ih hnodup.2 he]

end

/-! ## One annotation -/

def names (a : Annotations) : List QualifiedName := a.entries.map (·.1)

theorem length_names (a : Annotations) : a.names.length = a.size := List.length_map _

theorem names_insert (a : Annotations) (name : QualifiedName) (value : Datum) :
    (a.insert name value).names = if name ∈ a.names then a.names else a.names ++ [name] :=
  names_setEntry

/-- What an annotation that is set changes, and what it leaves as it was. -/
structure Sets (name : QualifiedName) (value : Datum) (a b : Annotations) : Prop where
  found : b.get? name = some value
  others : ∀ other, other ≠ name → b.get? other = a.get? other
  names : b.names = if name ∈ a.names then a.names else a.names ++ [name]
  size : b.size = if name ∈ a.names then a.size else a.size + 1

theorem sets_insert (a : Annotations) (name : QualifiedName) (value : Datum) :
    Sets name value a (a.insert name value) where
  found := lookup_setEntry_self
  others _ hne := lookup_setEntry_of_ne hne
  names := names_insert a name value
  size := by
    rw [← length_names, names_insert, ← length_names]
    by_cases h : name ∈ a.names
    · rw [if_pos h, if_pos h]
    · rw [if_neg h, if_neg h, List.length_append, List.length_singleton]

/-! ## Runs -/

def insertAll (a : Annotations) (calls : List (QualifiedName × Datum)) : Annotations :=
  calls.foldl (fun b call => b.insert call.1 call.2) a

theorem insertAll_append_singleton (a : Annotations) (calls : List (QualifiedName × Datum))
    (call : QualifiedName × Datum) :
    a.insertAll (calls ++ [call]) = (a.insertAll calls).insert call.1 call.2 := by
  rw [insertAll, List.foldl_append]
  rfl

theorem nodup_names_insertAll {a : Annotations} (h : a.names.Nodup)
    (calls : List (QualifiedName × Datum)) : (a.insertAll calls).names.Nodup := by
  induction calls using List.reverseRecOn with
  | nil => exact h
  | append_singleton calls call ih =>
      rw [insertAll_append_singleton, names_insert]
      by_cases hmem : call.1 ∈ (a.insertAll calls).names
      · rwa [if_pos hmem]
      · rw [if_neg hmem, ← List.concat_eq_append]
        exact ih.concat hmem

/-- The names that were there come first, then the new ones as they were first given. -/
theorem names_insertAll (a : Annotations) (calls : List (QualifiedName × Datum)) :
    (a.insertAll calls).names = a.names ++ ((calls.map (·.1)).removeAll a.names).eraseDups := by
  induction calls using List.reverseRecOn with
  | nil => simp [insertAll, List.removeAll]
  | append_singleton calls call ih =>
      rw [insertAll_append_singleton, names_insert, ih]
      by_cases hold : call.1 ∈ a.names
      · simp [List.removeAll, hold]
      · by_cases hnew : call.1 ∈ calls.map (·.1)
        · simp [List.removeAll, List.eraseDups_append, hold, hnew]
        · simp [List.removeAll, List.eraseDups_append, List.eraseDups_cons, hold, hnew]

/-- The value that was given last is found, and else what was there. -/
theorem get?_insertAll (a : Annotations) (calls : List (QualifiedName × Datum))
    (name : QualifiedName) :
    (a.insertAll calls).get? name = (calls.reverse.lookup name).or (a.get? name) := by
  induction calls using List.reverseRecOn with
  | nil => rfl
  | append_singleton calls call ih =>
      have hstep := sets_insert (a.insertAll calls) call.1 call.2
      rw [insertAll_append_singleton, List.reverse_append, List.reverse_singleton,
        List.singleton_append, List.lookup_cons]
      by_cases h : name = call.1
      · rw [h, hstep.found, beq_self_eq_true, Option.some_or]
      · rw [hstep.others name h, beq_false_of_ne h, ih]

end Annotations

/-! ## The annotations of a component -/

namespace LiveComponent

inductive Call where
  | annotate (name : QualifiedName) (value : Datum)
  | locate (l : ComponentLocation)

def Call.entry? : Call → Option (QualifiedName × Datum)
  | annotate name value => some (name, value)
  | locate _ => none

def apply (c : LiveComponent) : Call → LiveComponent
  | .annotate name value => c.withAnnotation name value
  | .locate l => c.withLocation l

def run (c : LiveComponent) (calls : List Call) : LiveComponent := calls.foldl apply c

theorem annotations_run (c : LiveComponent) (calls : List Call) :
    (c.run calls).annotations = c.annotations.insertAll (calls.filterMap Call.entry?) := by
  induction calls generalizing c with
  | nil => rfl
  | cons call calls ih =>
      rw [run, List.foldl_cons]
      cases call with
      | annotate name value => exact ih <| c.withAnnotation name value
      | locate l => exact ih <| c.withLocation l

end LiveComponent

/-- Each annotation of a run is found as it was set, leaves the others as they were, and is listed
at the end if its name is new.  From an empty bag each name is listed once, in the order in which
the names were first given, with its last value.  The bag of a component is the same as one that is
given the same annotations. -/
theorem Annotations.insertAll_in_order :
    (∀ (a : Annotations) (calls : List (QualifiedName × Datum)) (name : QualifiedName)
      (value : Datum),
        Sets name value (a.insertAll calls) (a.insertAll (calls ++ [(name, value)]))) ∧
    (∀ calls : List (QualifiedName × Datum),
      (insertAll {} calls).names.Nodup ∧
        (insertAll {} calls).names = (calls.map (·.1)).eraseDups ∧
        ∀ e ∈ (insertAll {} calls).entries, calls.reverse.lookup e.1 = some e.2) ∧
    ∀ (c : LiveComponent) (calls : List LiveComponent.Call),
      (c.run calls).annotations =
        c.annotations.insertAll (calls.filterMap LiveComponent.Call.entry?) := by
  refine ⟨?_, ?_, LiveComponent.annotations_run⟩
  · intro a calls name value
    rw [insertAll_append_singleton]
    exact sets_insert (a.insertAll calls) name value
  · intro calls
    have hnodup : (insertAll {} calls).names.Nodup :=
      nodup_names_insertAll (a := {}) List.nodup_nil calls
    refine ⟨hnodup, ?_, ?_⟩
    · rw [names_insertAll]
      exact congrArg List.eraseDups List.removeAll_nil
    · intro e he
      have hfound : (insertAll {} calls).get? e.1 = some e.2 :=
        lookup_eq_some_of_mem hnodup he
      rw [get?_insertAll] at hfound
      simpa [get?] using hfound

end FlowArtifact
