import FlowArtifact.Proofs.Json.Lexing
import FlowArtifact.Proofs.Source.Rendering

/-!
# Reading a JSON text

The reader takes one lexeme at a time and keeps a stack of open lists and
records.  On the lexemes of what is said it comes to stand behind a source that
says it, with the stack as it was before: this is proved by induction on what is
said, for every stack and for every text behind.  A source of what the text of a
document says renders the document.
-/

namespace FlowArtifact.Json

open Source (Renders RendersItems RendersFields IsText)

mutual
/-- The source says this, without tags and spellings of its own. -/
inductive Says : Source → Tree → Prop
  | scalar {spot : Spot} {value : Read Head} {v : Option Scalar} (htag : spot.tagged = false)
      (hvalue : value.toOption = v.map .scalar) : Says (.scalar spot value none false) (.scalar v)
  | text {spot : Spot} {value : Read Head} {v : Option String} (htag : spot.tagged = false)
      (hvalue : value.toOption = v.map fun t => .scalar (.text t)) :
      Says (.scalar spot value none false) (.text v)
  | list {spot : Spot} {items : Items} {ts : List Tree} (htag : spot.tagged = false)
      (hitems : SaysItems items ts) : Says (.list spot items) (.list ts)
  | record {spot : Spot} {fields : Fields} {fs : List (Option String × Tree)}
      (htag : spot.tagged = false) (hfields : SaysFields fields fs) :
      Says (.record spot fields) (.record fs)

inductive SaysItems : Items → List Tree → Prop
  | closed {place : Place} : SaysItems (.closed place) []
  | item {s : Source} {left : Place} {rest : Items} {t : Tree} {ts : List Tree}
      (hitem : Says s t) (hrest : SaysItems rest ts) : SaysItems (.item s left rest) (t :: ts)

inductive SaysFields : Fields → List (Option String × Tree) → Prop
  | closed {place : Place} : SaysFields (.closed place) []
  | field {key value : Source} {keyed left : Place} {rest : Fields} {name : Option String}
      {t : Tree} {fs : List (Option String × Tree)} (hkey : Says key (.text name))
      (hvalue : Says value t) (hrest : SaysFields rest fs) :
      SaysFields (.field key keyed value left rest) ((name, t) :: fs)
end

/-- The reader takes the lexemes from one state to another, and these tokens are left. -/
def Reaches (st : State) (ls : List Lexeme) (st' : State) (ts : List Token) : Prop :=
  ∃ ls', List.Forall₂ Carries ls' ts ∧ ls.foldl step st = ls'.foldl step st'

theorem reaches_cons {st : State} {l : Lexeme} {ls : List Lexeme} {st' : State} {ts : List Token}
    (h : Reaches (step st l) ls st' ts) : Reaches st (l :: ls) st' ts := h

theorem reaches_of_forall₂ {st : State} {ls : List Lexeme} {ts : List Token}
    (h : List.Forall₂ Carries ls ts) : Reaches st ls st ts := ⟨ls, h, rfl⟩

theorem reaches_of_foldl_eq {st st' st'' : State} {ls ls' : List Lexeme} {ts : List Token}
    (heq : ls.foldl step st = ls'.foldl step st') (h : Reaches st' ls' st'' ts) :
    Reaches st ls st'' ts := by
  obtain ⟨ls'', hcarry, heq'⟩ := h
  exact ⟨ls'', hcarry, heq.trans heq'⟩

/-! ## Scalars and keys -/

theorem says_scalarSource (l : Lexeme) {value : Read Scalar} {v : Option Scalar}
    (hv : value.toOption = v) : Says (l.scalarSource value) (.scalar v) :=
  .scalar rfl (by rw [toOption_map, hv])

theorem says_textSource (l : Lexeme) {value : Read String} {v : Option String}
    (hv : value.toOption = v) : Says (l.scalarSource (value.map .text)) (.text v) :=
  .text rfl (by rw [toOption_map, toOption_map, hv, Option.map_map]; rfl)

theorem reaches_key {ls : List Lexeme} {ts : List Token} {name : Option String}
    (h : List.Forall₂ Carries ls (.text name :: .colon :: ts)) (isFirst : Bool) (spot : Spot)
    (done : List Field) (stack : List Frame) :
    ∃ key keyed, Says key (.text name) ∧
      Reaches (.key isFirst spot done stack) ls
        (.value .field (.record spot done key keyed :: stack)) ts := by
  cases h with
  | @cons l _ _ _ hl hrest =>
    cases hrest with
    | @cons l' _ ls' _ hl' hls =>
      obtain ⟨value, hkind, hvalue⟩ := hl
      have hcolon : l'.kind = .colon := hl'
      refine ⟨_, l'.start, says_textSource l hvalue, ls', hls, ?_⟩
      have hkey : step (.key isFirst spot done stack) l =
          .colon spot done (l.scalarSource (value.map .text)) stack := by
        simp [step, keyStep, hkind]
      rw [List.foldl_cons, hkey, List.foldl_cons]
      simp [step, colonStep, hcolon]

/-! ## Lists and records -/

theorem exists_cons_of_carries {ls : List Lexeme} {ts : List Token} {t : Tree}
    (h : List.Forall₂ Carries ls (t.tokens ts)) : ∃ l ls', ls = l :: ls' := by
  have hlength := h.length_eq
  cases ls with
  | nil => cases t <;> simp [Tree.tokens] at hlength
  | cons l ls' => exact ⟨l, ls', rfl⟩

mutual
/-- The lexemes of a value, the first of which is taken where a value must come. -/
theorem reaches_value : (t : Tree) → ∀ {l : Lexeme} {ls : List Lexeme} {ts : List Token},
    List.Forall₂ Carries (l :: ls) (t.tokens ts) → ∀ (turn : Turn) (stack : List Frame),
      ∃ s, Says s t ∧ Reaches (valueStep turn stack l) ls (.behind s stack) ts
  | .scalar v, l, ls, ts, .cons ⟨value, hkind, hvalue⟩ hls, turn, stack => by
    have hstep : valueStep turn stack l = .behind (l.scalarSource value) stack := by
      simp [valueStep, hkind]
    refine ⟨_, says_scalarSource l hvalue, ?_⟩
    rw [hstep]
    exact reaches_of_forall₂ hls
  | .text v, l, ls, ts, .cons ⟨value, hkind, hvalue⟩ hls, turn, stack => by
    have hstep : valueStep turn stack l = .behind (l.scalarSource (value.map .text)) stack := by
      simp [valueStep, hkind]
    refine ⟨_, says_textSource l hvalue, ?_⟩
    rw [hstep]
    exact reaches_of_forall₂ hls
  | .list [], l, _, ts, .cons hl (.cons (a := l') hl' hls), turn, stack => by
    have hopen : l.kind = .openList := hl
    have hclose : l'.kind = .closeList := hl'
    have hstep : step (valueStep turn stack l) l' =
        .behind (.list l.spot (.closed l'.stop)) stack := by
      simp [valueStep, step, hopen, hclose, itemsBefore]
    refine ⟨.list l.spot (.closed l'.stop), .list rfl .closed, reaches_cons ?_⟩
    rw [hstep]
    exact reaches_of_forall₂ hls
  | .list (t :: rest), l, ls, ts, .cons hl hls, turn, stack => by
    have hopen : l.kind = .openList := hl
    have hstep : valueStep turn stack l = .value .first (.list l.spot [] :: stack) := by
      simp [valueStep, hopen]
    -- The list is open on the stack while its first item is read, then its rest follows.
    obtain ⟨l', ls', rfl⟩ := exists_cons_of_carries (t := t) hls
    obtain ⟨s, hs, lsᵢ, hcarry, hitem⟩ := reaches_value t hls .first (.list l.spot [] :: stack)
    obtain ⟨left, items, hitems, hreach⟩ := reaches_items rest l.spot [] s stack hcarry
    refine ⟨.list l.spot (.item s left items), .list rfl (.item hs hitems), ?_⟩
    rw [hstep]
    exact reaches_of_foldl_eq hitem hreach
  | .record [], l, _, ts, .cons hl (.cons (a := l') hl' hls), turn, stack => by
    have hopen : l.kind = .openRecord := hl
    have hclose : l'.kind = .closeRecord := hl'
    have hstep : step (valueStep turn stack l) l' =
        .behind (.record l.spot (.closed l'.stop)) stack := by
      simp [valueStep, step, keyStep, hopen, hclose, fieldsBefore]
    refine ⟨.record l.spot (.closed l'.stop), .record rfl .closed, reaches_cons ?_⟩
    rw [hstep]
    exact reaches_of_forall₂ hls
  | .record ((name, t) :: rest), l, ls, ts, .cons hl hls, turn, stack => by
    have hopen : l.kind = .openRecord := hl
    have hstep : valueStep turn stack l = .key true l.spot [] stack := by
      simp [valueStep, hopen]
    obtain ⟨key, keyed, hname, lsₖ, hcarry, hkey⟩ := reaches_key hls true l.spot [] stack
    obtain ⟨l', ls', rfl⟩ := exists_cons_of_carries (t := t) hcarry
    obtain ⟨s, hs, lsᵢ, hcarry', hitem⟩ :=
      reaches_value t hcarry .field (.record l.spot [] key keyed :: stack)
    obtain ⟨left, fields, hfields, hreach⟩ :=
      reaches_fields rest l.spot [] key keyed s stack hcarry'
    refine ⟨.record l.spot (.field key keyed s left fields),
      .record rfl (.field hname hs hfields), ?_⟩
    rw [hstep]
    exact reaches_of_foldl_eq (hkey.trans hitem) hreach

/-- The lexemes of the rest of a list, behind its item `s`. -/
theorem reaches_items : (items : List Tree) →
    ∀ (spot : Spot) (done : List (Source × Place)) (s : Source) (stack : List Frame)
      {ts : List Token} {ls : List Lexeme},
        List.Forall₂ Carries ls (Tree.itemTokens false ts items) →
          ∃ left rest, SaysItems rest items ∧
            Reaches (.behind s (.list spot done :: stack)) ls
              (.behind (.list spot (itemsBefore ((s, left) :: done) rest)) stack) ts
  | [], spot, done, s, stack, ts, _, .cons (a := l) hl hls => by
    have hclose : l.kind = .closeList := hl
    refine ⟨l.stop, .closed l.stop, .closed, reaches_cons ?_⟩
    simp only [step, behindStep, hclose]
    exact reaches_of_forall₂ hls
  | t :: rest, spot, done, s, stack, ts, _, .cons (a := l) hl hls => by
    have hcomma : l.kind = .comma := hl
    obtain ⟨l', ls', rfl⟩ := exists_cons_of_carries (t := t) hls
    obtain ⟨s', hs', lsᵢ, hcarry, hitem⟩ :=
      reaches_value t hls (.next s) (.list spot ((s, l'.start) :: done) :: stack)
    obtain ⟨left, items, hitems, hreach⟩ :=
      reaches_items rest spot ((s, l'.start) :: done) s' stack hcarry
    refine ⟨l'.start, .item s' left items, .item hs' hitems, reaches_cons (reaches_cons ?_)⟩
    simp only [step, behindStep, hcomma]
    exact reaches_of_foldl_eq hitem hreach

/-- The lexemes of the rest of a record, behind the value `s` of its key. -/
theorem reaches_fields : (fields : List (Option String × Tree)) →
    ∀ (spot : Spot) (done : List Field) (key : Source) (keyed : Place) (s : Source)
      (stack : List Frame) {ts : List Token} {ls : List Lexeme},
        List.Forall₂ Carries ls (Tree.fieldTokens false ts fields) →
          ∃ left rest, SaysFields rest fields ∧
            Reaches (.behind s (.record spot done key keyed :: stack)) ls
              (.behind (.record spot (fieldsBefore (⟨key, keyed, s, left⟩ :: done) rest)) stack) ts
  | [], spot, done, key, keyed, s, stack, ts, _, .cons (a := l) hl hls => by
    have hclose : l.kind = .closeRecord := hl
    refine ⟨l.stop, .closed l.stop, .closed, reaches_cons ?_⟩
    simp only [step, behindStep, hclose]
    exact reaches_of_forall₂ hls
  | (name, t) :: rest, spot, done, key, keyed, s, stack, ts, _, .cons (a := l) hl hls => by
    have hcomma : l.kind = .comma := hl
    obtain ⟨key', keyed', hname, lsₖ, hcarry, hkey⟩ :=
      reaches_key hls false spot (⟨key, keyed, s, l.start⟩ :: done) stack
    obtain ⟨l', ls', rfl⟩ := exists_cons_of_carries (t := t) hcarry
    obtain ⟨s', hs', lsᵢ, hcarry', hitem⟩ := reaches_value t hcarry .field
      (.record spot (⟨key, keyed, s, l.start⟩ :: done) key' keyed' :: stack)
    obtain ⟨left, fields, hfields, hreach⟩ := reaches_fields rest spot
      (⟨key, keyed, s, l.start⟩ :: done) key' keyed' s' stack hcarry'
    refine ⟨l.start, .field key' keyed' s' left fields, .field hname hs' hfields,
      reaches_cons ?_⟩
    simp only [step, behindStep, hcomma]
    exact reaches_of_foldl_eq (hkey.trans hitem) hreach
end

/-- A JSON text is read to a source that says what the text says. -/
theorem read_of_denotes {text : String} {t : Tree} (h : Denotes text t) :
    ∃ s, Says s t ∧ read text = ⟨s, none⟩ := by
  have hcarries : List.Forall₂ Carries (lexemes text) (t.tokens [.finish]) :=
    carries_scan h .origin
  obtain ⟨l, ls, hls⟩ := exists_cons_of_carries hcarries
  rw [hls] at hcarries
  obtain ⟨s, hs, ls', hfinish, hread⟩ := reaches_value t hcarries .root []
  refine ⟨s, hs, ?_⟩
  cases hfinish with
  | @cons l' _ _ _ hl' hnil =>
      cases hnil
      have hkind : l'.kind = .finish := hl'
      have hend : step (.behind s []) l' = .finished ⟨s, none⟩ := by
        simp [step, behindStep, hkind]
      unfold read
      rw [hls, List.foldl_cons]
      show State.reading (ls.foldl step (valueStep .root [] l)) = _
      rw [hread, List.foldl_cons, hend]
      rfl

/-! ## Documents -/

variable {P : Scalar → Prop}

theorem isText_of_said {s : Source} {t : String} (h : Says s (.text (some t))) : IsText t s := by
  cases h with
  | @text spot value _ htag hvalue => exact ⟨htag, toOption_eq_some_iff.1 hvalue, .inl rfl⟩

mutual
theorem renders_of_said : {s : Source} → (d : Doc) → d.Over P → Says s (.ofDoc d) →
    Renders restored? s d
  | s, .scalar x, _, h => by
    cases x with
    | text t =>
        cases h with
        | text htag hvalue => exact .scalar htag hvalue fun _ _ => .inl rfl
    | _ =>
        cases h with
        | scalar htag hvalue => exact .scalar htag hvalue fun _ _ => .inl rfl
  | s, .list items, hd, h => by
    cases h with
    | list htag hitems => exact .list htag (rendersItems_of_said items hd hitems)
  | s, .record fields, hd, h => by
    cases h with
    | record htag hfields => exact .record htag (rendersFields_of_said fields hd hfields)

theorem rendersItems_of_said : {items : Items} → (ds : List Doc) → Doc.OverItems P ds →
    SaysItems items (Tree.ofItems ds) → RendersItems restored? items ds
  | _, [], _, h => by
    cases h
    exact .closed
  | _, d :: rest, hd, h => by
    cases h with
    | item hitem hrest =>
        exact .item (renders_of_said d hd.1 hitem) (rendersItems_of_said rest hd.2 hrest)

theorem rendersFields_of_said : {fields : Fields} → (fs : List (Head × Doc)) →
    Doc.OverFields P fs → SaysFields fields (Tree.ofFields fs) → RendersFields restored? fields fs
  | _, [], _, h => by
    cases h
    exact .closed
  | _, (_, d) :: rest, ⟨⟨name, rfl⟩, hd, hrest⟩, h => by
    cases h with
    | field hkey hvalue hfields =>
        exact .field (isText_of_said hkey) (renders_of_said d hd hvalue)
          (rendersFields_of_said rest hrest hfields)
end

/-- A written document is read to a source that renders it, in either layout. -/
theorem read_written {d : Doc} (hd : d.Over P) (indented : Bool) :
    ∃ s, Renders restored? s d ∧
      read (if indented then pretty d else compact d) = ⟨s, none⟩ := by
  obtain ⟨s, hs, hread⟩ := read_of_denotes (denotes_written hd indented)
  exact ⟨s, renders_of_said d hd hs, hread⟩

end FlowArtifact.Json
