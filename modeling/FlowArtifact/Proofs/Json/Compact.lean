import FlowArtifact.Proofs.Doc.Fields
import FlowArtifact.Proofs.Json.Parsing
import FlowArtifact.Proofs.NameMap
import FlowArtifact.Proofs.Text.Octets

/-!
# Texts on one line

The text of a record on one line is made of the texts of its fields, with commas
between them.  A map is written as a record, so its names stand in the order of
their octets, whatever the order in which it was filled.  Documents whose scalars
the reader restores have different texts unless they are the same: the reader
takes from a text the document that was written, and it takes only one.
-/

namespace FlowArtifact.Json

def fieldText (name text : String) : String := compact (.text name) ++ ":" ++ text

def recordText (fields : List (String × String)) : String :=
  "\x7b" ++ ",".intercalate (fields.map fun e => fieldText e.1 e.2) ++ "\x7d"

theorem toList_compact (d : Doc) : (compact d).toList = compactChars d := String.toList_ofList

theorem toList_fieldText (name : String) (d : Doc) :
    (fieldText name (compact d)).toList = textChars name ++ ':' :: compactChars d := by
  unfold fieldText
  rw [String.toList_append, String.toList_append, toList_compact, toList_compact, List.append_assoc]
  rfl

theorem compactFields_keyed (e : String × Doc) (rest : List (String × Doc)) :
    compactFields true (Doc.keyed (e :: rest)) =
      (",".intercalate ((e :: rest).map fun e => fieldText e.1 (compact e.2))).toList ++ ['}'] := by
  induction rest generalizing e with
  | nil =>
      rw [List.map_singleton, String.intercalate_singleton, toList_fieldText, List.append_assoc]
      rfl
  | cons e' rest ih =>
      let text (e : String × Doc) : String := fieldText e.1 (compact e.2)
      have hsplit : ",".intercalate ((e :: e' :: rest).map text) =
          text e ++ "," ++ ",".intercalate ((e' :: rest).map text) :=
        String.intercalate_cons_cons
      have hbehind : compactFields true (Doc.keyed (e :: e' :: rest)) =
          (textChars e.1 ++ ':' :: compactChars e.2) ++
            ',' :: compactFields true (Doc.keyed (e' :: rest)) := by
        rw [List.append_assoc]
        rfl
      rw [hsplit, hbehind, ih, String.toList_append, String.toList_append, toList_fieldText]
      simp only [List.append_assoc]
      rfl

theorem compact_named (fields : List (String × Doc)) :
    compact (.named fields) = recordText (fields.map fun e => (e.1, compact e.2)) := by
  cases fields with
  | nil => rfl
  | cons e rest =>
      rw [← String.toList_inj, toList_compact, Doc.named_eq_record, compactChars,
        compactFields_keyed]
      unfold recordText
      rw [String.toList_append, String.toList_append, List.map_map]
      rfl

/-! ## Maps -/

/-- The entries of a map for which these were given one after another, in any order: each name
stands once, in the order of the octets, with what was given for it last. -/
structure ListsLast (given entries : List (String × String)) : Prop where
  sorted : entries.Pairwise fun a b => Text.octets a.1 < Text.octets b.1
  mem_iff : ∀ name text, (name, text) ∈ entries ↔ NameMap.last? given name = some text

theorem listsLast_ofList {α : Type} (text : α → String) (l : List (String × α)) :
    ListsLast (l.map fun e => (e.1, text e.2)) ((NameMap.ofList l).map text).entries := by
  constructor
  · exact ((NameMap.ofList l).map text).sorted.imp Text.octets_lt
  · intro name t
    rw [NameMap.last?_map, Option.map_eq_some_iff, NameMap.entries_map, List.mem_map]
    constructor
    · rintro ⟨e, he, ⟨⟩⟩
      exact ⟨e.2, NameMap.mem_ofList.1 he, rfl⟩
    · rintro ⟨a, ha, rfl⟩
      exact ⟨(name, a), NameMap.mem_ofList.2 ha, rfl⟩

/-! ## Different documents -/

def Restored (d : Doc) : Prop := d.Over fun x => restored? x = some x

theorem content_of_renders {d : Doc} (hd : Restored d) {s : Source} (hs : s.Renders restored? d)
    {room : Nat} (hroom : d.nesting ≤ room) : s.content room = .ok d := by
  have hself : d.mapScalars id = d := Doc.mapScalars_eq_self (hd.imp fun _ _ => rfl)
  rw [Source.content_eq_ok (g := id) room hs hd hroom, hself]

theorem eq_of_compact_eq {d d' : Doc} (hd : Restored d) (hd' : Restored d')
    (h : compact d = compact d') : d = d' := by
  obtain ⟨s, hs, hread⟩ := read_written hd false
  obtain ⟨s', hs', hread'⟩ := read_written hd' false
  simp only [Bool.false_eq_true, if_false] at hread hread'
  obtain rfl : s = s' := by
    rw [h, hread'] at hread
    exact (Reading.mk.inj hread).1.symm
  have hcontent := content_of_renders hd hs (Nat.le_max_left _ d'.nesting)
  rw [content_of_renders hd' hs' (Nat.le_max_right d.nesting _)] at hcontent
  exact (Except.ok.inj hcontent).symm

end FlowArtifact.Json
