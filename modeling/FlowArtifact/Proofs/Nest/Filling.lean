import FlowArtifact.Nest
import FlowArtifact.Proofs.NameMap

/-!
# Nests that were filled

A shape is also a way to build a nest: its records are filled with their fields in
the order in which the shape has them, repeated names included.  Two shapes build
the same nest exactly when they are alike, which is said of them without building
anything: lists are alike item by item, and records by what they give last for
each name.
-/

namespace FlowArtifact

variable {α τ : Type}

/-! ## Equal nests -/

namespace Shape

mutual
theorem same_iff_eq [BEq α] [LawfulBEq α] [BEq τ] [LawfulBEq τ] :
    (s t : Shape α τ) → (s.same (· == ·) t = true ↔ s = t)
  | .leaf _, .leaf _ => by simp [same]
  | .list items, .list items' => by simp [same, sameItems_iff_eq items items']
  | .record _ fields, .record _ fields' => by simp [same, sameFields_iff_eq fields fields']
  | .leaf _, .list _ | .leaf _, .record _ _ | .list _, .leaf _ | .list _, .record _ _
  | .record _ _, .leaf _ | .record _ _, .list _ => by simp [same]

theorem sameItems_iff_eq [BEq α] [LawfulBEq α] [BEq τ] [LawfulBEq τ] :
    (items items' : List (Shape α τ)) → (sameItems (· == ·) items items' = true ↔ items = items')
  | [], [] | [], _ :: _ | _ :: _, [] => by simp [sameItems]
  | s :: rest, s' :: rest' => by simp [sameItems, same_iff_eq s s', sameItems_iff_eq rest rest']

theorem sameFields_iff_eq [BEq α] [LawfulBEq α] [BEq τ] [LawfulBEq τ] :
    (fields fields' : List (String × Shape α τ)) →
    (sameFields (· == ·) fields fields' = true ↔ fields = fields')
  | [], [] | [], _ :: _ | _ :: _, [] => by simp [sameFields]
  | (_, s) :: rest, (_, s') :: rest' => by
    simp [sameFields, same_iff_eq s s', sameFields_iff_eq rest rest']
end

end Shape

namespace Nest

theorem same_iff_eq [BEq α] [LawfulBEq α] [BEq τ] [LawfulBEq τ] {m n : Nest α τ} :
    m.same (· == ·) n = true ↔ m = n :=
  (Shape.same_iff_eq _ _).trans ⟨ext, congrArg shape⟩

@[simp] theorem leaf_inj {a b : α} : (leaf a : Nest α τ) = leaf b ↔ a = b :=
  ⟨fun h => by simpa using congrArg view h, congrArg leaf⟩

@[simp] theorem list_inj {items items' : List (Nest α τ)} :
    list items = list items' ↔ items = items' :=
  ⟨fun h => by simpa using congrArg view h, congrArg list⟩

@[simp] theorem record_inj {tag tag' : τ} {fields fields' : NameMap (Nest α τ)} :
    record tag fields = record tag' fields' ↔ tag = tag' ∧ fields = fields' :=
  ⟨fun h => by simpa using congrArg view h, fun ⟨htag, hfields⟩ => by rw [htag, hfields]⟩

/-! ## Building a nest -/

/-- The nest that a shape builds: a later field replaces an earlier one of the same name. -/
def ofShape (s : Shape α τ) : Nest α τ :=
  s.fold leaf list fun tag fields => record tag (.ofList fields)

@[simp] theorem ofShape_leaf (a : α) : ofShape (.leaf a : Shape α τ) = leaf a := rfl

@[simp] theorem ofShape_list (items : List (Shape α τ)) :
    ofShape (.list items) = list (items.map ofShape) := by
  unfold ofShape
  rw [Shape.fold, Shape.foldItems_eq_map]

@[simp] theorem ofShape_record (tag : τ) (fields : List (String × Shape α τ)) :
    ofShape (.record tag fields) =
      record tag (.ofList (fields.map fun e => (e.1, ofShape e.2))) := by
  unfold ofShape
  rw [Shape.fold, Shape.foldFields_eq_map]

end Nest

theorem option_map_eq_map_iff {β : Type} {f : α → β} {o o' : Option α} : o.map f = o'.map f ↔
    o.isSome = o'.isSome ∧ ∀ a a', o = some a → o' = some a' → f a = f a' := by
  cases o <;> cases o' <;> simp

namespace Shape

/-- Two ways to build that differ in nothing but what is replaced and in the order of names. -/
inductive Alike : Shape α τ → Shape α τ → Prop
  | leaf (a : α) : Alike (.leaf a) (.leaf a)
  | list {items items' : List (Shape α τ)} (hlength : items.length = items'.length)
      (hitems : ∀ (i : Nat) s s', items[i]? = some s → items'[i]? = some s' → Alike s s') :
      Alike (.list items) (.list items')
  | record {tag : τ} {fields fields' : List (String × Shape α τ)}
      (hnames : ∀ name,
        (NameMap.last? fields name).isSome = (NameMap.last? fields' name).isSome)
      (hlast : ∀ name s s', NameMap.last? fields name = some s →
        NameMap.last? fields' name = some s' → Alike s s') :
      Alike (.record tag fields) (.record tag fields')

theorem ofShape_eq_of_alike {s t : Shape α τ} (h : Alike s t) :
    Nest.ofShape s = Nest.ofShape t := by
  induction h with
  | leaf a => rfl
  | list hlength hitems ih =>
      rw [Nest.ofShape_list, Nest.ofShape_list, Nest.list_inj]
      apply List.ext_getElem?
      intro i
      rw [List.getElem?_map, List.getElem?_map, option_map_eq_map_iff]
      refine ⟨?_, ih i⟩
      rw [Bool.eq_iff_iff, isSome_getElem?, isSome_getElem?, hlength]
  | record hnames hlast ih =>
      rw [Nest.ofShape_record, Nest.ofShape_record, Nest.record_inj, NameMap.ofList_eq_iff]
      refine ⟨rfl, fun name => ?_⟩
      rw [NameMap.last?_map, NameMap.last?_map, option_map_eq_map_iff]
      exact ⟨hnames name, ih name⟩

theorem alike_of_ofShape_eq :
    (s t : Shape α τ) → Nest.ofShape s = Nest.ofShape t → Alike s t
  | .leaf a, .leaf b, h => by
    obtain rfl : a = b := by simpa using h
    exact .leaf a
  | .list items, .list items', h => by
    rw [Nest.ofShape_list, Nest.ofShape_list, Nest.list_inj] at h
    refine .list (by simpa using congrArg List.length h) fun i s s' hs hs' => ?_
    have hmem := List.mem_of_getElem? hs
    apply alike_of_ofShape_eq s s'
    have hi := congrArg (·[i]?) h
    simpa [hs, hs'] using hi
  | .record tag fields, .record tag' fields', h => by
    rw [Nest.ofShape_record, Nest.ofShape_record, Nest.record_inj, NameMap.ofList_eq_iff] at h
    obtain ⟨rfl, hsame⟩ := h
    have hlast (name : String) := hsame name
    simp only [NameMap.last?_map, option_map_eq_map_iff] at hlast
    refine .record (fun name => (hlast name).1) fun name s s' hs hs' => ?_
    have hmem := NameMap.mem_of_last? hs
    exact alike_of_ofShape_eq s s' ((hlast name).2 s s' hs hs')
  | .leaf _, .list _, h | .leaf _, .record _ _, h | .list _, .leaf _, h | .list _, .record _ _, h
  | .record _ _, .leaf _, h | .record _ _, .list _, h => by
    have hview := congrArg Nest.view h
    simp at hview
termination_by s => sizeOf s
decreasing_by
  · have hsize := List.sizeOf_lt_of_mem hmem
    simp
    omega
  · have hsize := List.sizeOf_lt_of_mem hmem
    simp at hsize ⊢
    omega

/-- Alike shapes build the same nest, and no other shapes do. -/
theorem ofShape_eq_iff {s t : Shape α τ} : Nest.ofShape s = Nest.ofShape t ↔ Alike s t :=
  ⟨alike_of_ofShape_eq s t, ofShape_eq_of_alike⟩

end Shape

end FlowArtifact
