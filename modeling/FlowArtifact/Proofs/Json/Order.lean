import FlowArtifact.Proofs.Doc.Order
import FlowArtifact.Proofs.Json.Parsing

/-!
# JSON texts and the order of fields

Two JSON texts say the same but for the order of fields if each record in them
has the same fields, none of which comes twice.  The documents that are taken of
them are then the same but for the order of fields, and if no document is taken
of one, because a value is out of range or nested too deep, none is taken of the
other.
-/

namespace FlowArtifact.Json

section
variable {α α' β β' : Type} {r : α → α' → Prop} {q : β → β' → Prop} {o : Option α} {o' : Option α'}

theorem rel_map (h : Option.Rel r o o') {f : α → β} {g : α' → β'}
    (hfg : ∀ a a', r a a' → q (f a) (g a')) : Option.Rel q (o.map f) (o'.map g) := by
  cases h with
  | some hr => exact .some (hfg _ _ hr)
  | none => exact .none

theorem rel_bind (h : Option.Rel r o o') {f : α → Option β} {g : α' → Option β'}
    (hfg : ∀ a a', r a a' → Option.Rel q (f a) (g a')) : Option.Rel q (o.bind f) (o'.bind g) := by
  cases h with
  | some hr => exact hfg _ _ hr
  | none => exact .none

theorem rel_refl {r : α → α → Prop} (hr : ∀ a, r a a) (o : Option α) : Option.Rel r o o := by
  cases o with
  | some a => exact .some (hr a)
  | none => exact .none

end

/-! ## What is said -/

namespace Tree

mutual
/-- The same is said but for the order of fields; no record repeats a name. -/
inductive Reordered : Tree → Tree → Prop
  | scalar (value : Option Scalar) : Reordered (.scalar value) (.scalar value)
  | text (value : Option String) : Reordered (.text value) (.text value)
  | list {ts us : List Tree} (hitems : ReorderedItems ts us) : Reordered (.list ts) (.list us)
  | record {l m n : List (Option String × Tree)} (hnames : (l.filterMap (·.1)).Nodup)
      (hfields : ReorderedFields l m) (hperm : m.Perm n) : Reordered (.record l) (.record n)

inductive ReorderedItems : List Tree → List Tree → Prop
  | nil : ReorderedItems [] []
  | cons {t u : Tree} {ts us : List Tree} (hitem : Reordered t u) (hrest : ReorderedItems ts us) :
      ReorderedItems (t :: ts) (u :: us)

inductive ReorderedFields : List (Option String × Tree) → List (Option String × Tree) → Prop
  | nil : ReorderedFields [] []
  | cons {name : Option String} {t u : Tree} {l m : List (Option String × Tree)}
      (hvalue : Reordered t u) (hrest : ReorderedFields l m) :
      ReorderedFields ((name, t) :: l) ((name, u) :: m)
end

mutual
def doc? (room : Nat) : Tree → Option Doc
  | .scalar value => value.map .scalar
  | .text value => value.map .text
  | .list items =>
    match room with
    | 0 => none
    | room + 1 => (docs? room items).map .list
  | .record fields =>
    match room with
    | 0 => none
    | room + 1 => (fields? room fields).map .named

def docs? (room : Nat) : List Tree → Option (List Doc)
  | [] => some []
  | t :: rest => (t.doc? room).bind fun d => (docs? room rest).map (d :: ·)

def fields? (room : Nat) : List (Option String × Tree) → Option (List (String × Doc))
  | [] => some []
  | (name, t) :: rest => name.bind fun s => (t.doc? room).bind fun d =>
    (fields? room rest).map ((s, d) :: ·)
end

theorem names_of_fields? {room : Nat} {l : List (Option String × Tree)}
    {fs : List (String × Doc)} (h : fields? room l = some fs) :
    fs.map (·.1) = l.filterMap (·.1) := by
  induction l generalizing fs with
  | nil =>
      cases h
      rfl
  | cons e rest ih =>
      obtain ⟨name, t⟩ := e
      simp only [fields?, Option.bind_eq_some_iff, Option.map_eq_some_iff] at h
      obtain ⟨s, rfl, d, -, fs, hrest, rfl⟩ := h
      simp [ih hrest]

theorem fields?_perm {room : Nat} {l m : List (Option String × Tree)} (h : l.Perm m) :
    Option.Rel List.Perm (fields? room l) (fields? room m) := by
  induction h with
  | nil => exact .some .nil
  | cons e _ ih =>
      refine rel_bind (rel_refl (r := Eq) (fun _ => rfl) e.1) ?_
      rintro s _ rfl
      refine rel_bind (rel_refl (r := Eq) (fun _ => rfl) (e.2.doc? room)) ?_
      rintro d _ rfl
      exact rel_map ih fun _ _ hperm => hperm.cons _
  | swap e f l =>
      obtain ⟨name, t⟩ := e
      obtain ⟨name', t'⟩ := f
      simp only [fields?]
      cases name <;> cases name' <;> cases t.doc? room <;> cases t'.doc? room <;>
        cases fields? room l <;> first | exact .none | exact .some (.swap _ _ _)
  | trans _ _ ihl ihm =>
      revert ihl ihm
      generalize fields? room _ = a, fields? room _ = b, fields? room _ = c
      rintro ⟨hab⟩ ⟨hbc⟩
      · exact .some (hab.trans hbc)
      · exact .none

theorem fields?_reordered {room : Nat} {l m n : List (Option String × Tree)}
    (hnames : (l.filterMap (·.1)).Nodup)
    (hfields : Option.Rel Doc.ReorderedFields (fields? room l) (fields? room m))
    (hperm : m.Perm n) :
    Option.Rel Doc.Reordered ((fields? room l).map .named) ((fields? room n).map .named) := by
  have hpermuted : Option.Rel List.Perm (fields? room m) (fields? room n) := fields?_perm hperm
  have hkeys (fs : List (String × Doc)) (hfs : fields? room l = some fs) :
      (fs.map (·.1)).Nodup := names_of_fields? hfs ▸ hnames
  revert hfields hpermuted hkeys
  generalize fields? room l = a, fields? room m = b, fields? room n = c
  rintro ⟨hfs⟩ ⟨hgs⟩ hkeys
  · exact .some (.record (hkeys _ rfl) hfs hgs)
  · exact .none

mutual
/-- The documents of what is said differ in the order of their fields only. -/
theorem doc?_reordered (room : Nat) : {t u : Tree} → t.Reordered u →
    Option.Rel Doc.Reordered (t.doc? room) (u.doc? room)
  | _, _, .scalar value => by
    cases value with
    | none => exact .none
    | some x => exact .some (.scalar x)
  | _, _, .text value => by
    cases value with
    | none => exact .none
    | some s => exact .some (.scalar (.text s))
  | _, _, .list hitems => by
    cases room with
    | zero => exact .none
    | succ room => exact rel_map (docs?_reordered room hitems) fun _ _ => .list
  | _, _, .record hnames hfields hperm => by
    cases room with
    | zero => exact .none
    | succ room => exact fields?_reordered hnames (fields?_congr room hfields) hperm

theorem docs?_reordered (room : Nat) : {ts us : List Tree} → ReorderedItems ts us →
    Option.Rel Doc.ReorderedItems (docs? room ts) (docs? room us)
  | _, _, .nil => .some .nil
  | _, _, .cons hitem hrest =>
    rel_bind (doc?_reordered room hitem) fun _ _ hd =>
      rel_map (docs?_reordered room hrest) fun _ _ hds => .cons hd hds

theorem fields?_congr (room : Nat) : {l m : List (Option String × Tree)} →
    ReorderedFields l m → Option.Rel Doc.ReorderedFields (fields? room l) (fields? room m)
  | _, _, .nil => .some .nil
  | _, _, @ReorderedFields.cons name _ _ _ _ hvalue hrest => by
    cases name with
    | none => exact .none
    | some s =>
        exact rel_bind (doc?_reordered room hvalue) fun _ _ hd =>
          rel_map (fields?_congr room hrest) fun _ _ hfs => .cons hd hfs
end

end Tree

/-! ## Sources -/

open Source (content contentItems contentFields)

mutual
/-- What is taken of a source is the document of what it says. -/
theorem toOption_content (room : Nat) : {s : Source} → {t : Tree} → Says s t →
    (s.content room).toOption = t.doc? room
  | _, _, @Says.scalar spot value v htag hvalue => by
    cases v with
    | none =>
        cases value with
        | error f => simp [content, htag, Tree.doc?]
        | ok head => cases hvalue
    | some x =>
        obtain rfl := toOption_eq_some_iff.1 hvalue
        simp [content, htag, Tree.doc?]
  | _, _, @Says.text spot value v htag hvalue => by
    cases v with
    | none =>
        cases value with
        | error f => simp [content, htag, Tree.doc?]
        | ok head => cases hvalue
    | some t =>
        obtain rfl := toOption_eq_some_iff.1 hvalue
        simp [content, htag, Tree.doc?, Doc.text]
  | _, _, .list htag hitems => by
    cases room with
    | zero => simp [content, htag, Tree.doc?]
    | succ room =>
        simp only [content, htag, Bool.false_eq_true, if_false, Tree.doc?, toOption_bind,
          toOption_contentItems room hitems]
        cases Tree.docs? room _ <;> rfl
  | _, _, .record htag hfields => by
    cases room with
    | zero => simp [content, htag, Tree.doc?]
    | succ room =>
        simp only [content, htag, Bool.false_eq_true, if_false, Tree.doc?, toOption_bind,
          toOption_contentFields room hfields]
        cases Tree.fields? room _ <;> rfl

theorem toOption_contentItems (room : Nat) : {items : Items} → {ts : List Tree} →
    SaysItems items ts → (contentItems room items).toOption = Tree.docs? room ts
  | _, _, .closed => rfl
  | _, _, @SaysItems.item _ _ _ t ts hitem hrest => by
    simp only [contentItems, toOption_bind, toOption_content room hitem,
      toOption_contentItems room hrest, Tree.docs?]
    cases t.doc? room <;> cases Tree.docs? room ts <;> rfl

theorem toOption_contentFields (room : Nat) : {fields : Fields} →
    {fs : List (Option String × Tree)} → SaysFields fields fs →
      (contentFields room fields).toOption = (Tree.fields? room fs).map Doc.keyed
  | _, _, .closed => rfl
  | _, _, @SaysFields.field _ _ _ _ _ name t fs hkey hvalue hrest => by
    simp only [contentFields, toOption_bind, toOption_content room hkey,
      toOption_content room hvalue, toOption_contentFields room hrest, Tree.fields?, Tree.doc?]
    cases name with
    | none => rfl
    | some s => cases t.doc? room <;> cases Tree.fields? room fs <;> rfl
end

end FlowArtifact.Json
