import FlowArtifact.Json.Reader
import FlowArtifact.Proofs.Source.Plain

/-!
# Keys of JSON documents

Whatever a JSON text is, its source is plain, so the document that is taken of it
has texts for keys and holds no zero with a minus sign.  The reader keeps this of
everything it has put together so far, one lexeme at a time.
-/

namespace FlowArtifact

namespace Json

open Source (PlainItems PlainFields)

theorem plain_scalarSource (l : Lexeme) (value : Read Scalar) : (l.scalarSource value).Plain :=
  ⟨rfl, rfl, rfl, value, rfl⟩

theorem plainKey_scalarSource (l : Lexeme) (value : Read String) :
    (l.scalarSource (value.map .text)).PlainKey :=
  ⟨rfl, rfl, value, by cases value <;> rfl⟩

theorem plain_itemsBefore {done : List (Source × Place)} {rest : Items}
    (hdone : ∀ e ∈ done, e.1.Plain) (hrest : PlainItems rest) :
    PlainItems (itemsBefore done rest) := by
  induction done generalizing rest with
  | nil => exact hrest
  | cons e done ih =>
      obtain ⟨he, hdone⟩ := List.forall_mem_cons.1 hdone
      exact ih hdone ⟨he, hrest⟩

structure Field.Plain (f : Field) : Prop where
  key : f.key.PlainKey
  value : f.value.Plain

theorem plain_fieldsBefore {done : List Field} {rest : Fields} (hdone : ∀ f ∈ done, f.Plain)
    (hrest : PlainFields rest) : PlainFields (fieldsBefore done rest) := by
  induction done generalizing rest with
  | nil => exact hrest
  | cons f done ih =>
      obtain ⟨hf, hdone⟩ := List.forall_mem_cons.1 hdone
      exact ih hdone ⟨hf.key, hf.value, hrest⟩

def Frame.Plain : Frame → Prop
  | .list spot done => spot.tagged = false ∧ ∀ e ∈ done, e.1.Plain
  | .record spot done key _ => spot.tagged = false ∧ (∀ f ∈ done, f.Plain) ∧ key.PlainKey

def State.Plain : State → Prop
  | .value turn stack => (∀ s, turn = .next s → s.Plain) ∧ ∀ f ∈ stack, f.Plain
  | .key _ spot done stack =>
    spot.tagged = false ∧ (∀ f ∈ done, f.Plain) ∧ ∀ f ∈ stack, f.Plain
  | .colon spot done k stack =>
    spot.tagged = false ∧ (∀ f ∈ done, f.Plain) ∧ k.PlainKey ∧ ∀ f ∈ stack, f.Plain
  | .behind s stack => s.Plain ∧ ∀ f ∈ stack, f.Plain
  | .finished r => r.root.Plain

variable {stack : List Frame} {spot : Spot} {done : List Field} {key : Source}

theorem plain_seal {f : Frame} {inner : Source} (b : Break) (hf : f.Plain) (hinner : inner.Plain) :
    (f.seal b inner).Plain := by
  cases f with
  | list spot done => exact ⟨hf.1, plain_itemsBefore hf.2 ⟨hinner, trivial⟩⟩
  | record spot done key keyed =>
      exact ⟨hf.1, plain_fieldsBefore hf.2.1 ⟨hf.2.2, hinner, trivial⟩⟩

theorem plain_stop {inner : Source} (b : Break) (hinner : inner.Plain)
    (hstack : ∀ f ∈ stack, f.Plain) : (stop b inner stack).Plain := by
  show (stack.foldl (fun s f => f.seal b s) inner).Plain
  induction stack generalizing inner with
  | nil => exact hinner
  | cons f rest ih =>
      obtain ⟨hf, hrest⟩ := List.forall_mem_cons.1 hstack
      exact ih (plain_seal b hf hinner) hrest

theorem plain_stop_broken (b : Break) (hstack : ∀ f ∈ stack, f.Plain) :
    (stop b (.broken b) stack).Plain :=
  plain_stop b trivial hstack

theorem plain_stop_list {items : List (Source × Place)} (b : Break) (htag : spot.tagged = false)
    (hitems : ∀ e ∈ items, e.1.Plain) (hstack : ∀ f ∈ stack, f.Plain) :
    (stop b (.list spot (itemsBefore items (.broken b))) stack).Plain :=
  plain_stop b ⟨htag, plain_itemsBefore hitems trivial⟩ hstack

theorem plain_stop_record (b b' : Break) (htag : spot.tagged = false)
    (hdone : ∀ f ∈ done, f.Plain) (hstack : ∀ f ∈ stack, f.Plain) :
    (stop b (.record spot (fieldsBefore done (.broken b'))) stack).Plain :=
  plain_stop b ⟨htag, plain_fieldsBefore hdone trivial⟩ hstack

theorem plain_valueStep_end (turn : Turn) (l : Lexeme) (hend : l.kind = .closeList ∨
    l.kind = .finish) (hstack : ∀ f ∈ stack, f.Plain) : (valueStep turn stack l).Plain := by
  have hbroken (b : Break) : (stop b (.broken b) stack).Plain := plain_stop_broken b hstack
  unfold valueStep
  rcases stack with - | ⟨⟨spot, done⟩ | ⟨spot, done, key, keyed⟩, rest⟩
  case cons.list =>
    obtain ⟨hf, hrest⟩ := List.forall_mem_cons.1 hstack
    have hlist (b : Break) : (stop b (.list spot (itemsBefore done (.broken b))) rest).Plain :=
      plain_stop_list b hf.1 hf.2 hrest
    rcases hend with hkind | hkind <;> rw [hkind] <;> cases turn
    case inl.first => exact ⟨⟨hf.1, plain_itemsBefore hf.2 trivial⟩, hrest⟩
    all_goals first | exact hlist _ | exact hbroken _
  all_goals
    rcases hend with hkind | hkind <;> rw [hkind] <;> cases turn <;> exact hbroken _

theorem plain_valueStep (turn : Turn) (l : Lexeme) (hstack : ∀ f ∈ stack, f.Plain) :
    (valueStep turn stack l).Plain := by
  cases hkind : l.kind with
  | closeList => exact plain_valueStep_end turn l (.inl hkind) hstack
  | finish => exact plain_valueStep_end turn l (.inr hkind) hstack
  | text v =>
      simp only [valueStep, hkind]
      exact ⟨plain_scalarSource _ _, hstack⟩
  | scalar v =>
      simp only [valueStep, hkind]
      exact ⟨plain_scalarSource _ _, hstack⟩
  | openList =>
      simp only [valueStep, hkind]
      exact ⟨by simp, List.forall_mem_cons.2 ⟨⟨rfl, by simp⟩, hstack⟩⟩
  | openRecord =>
      simp only [valueStep, hkind]
      exact ⟨rfl, by simp, hstack⟩
  | _ =>
      simp only [valueStep, hkind]
      exact plain_stop_broken _ hstack

theorem plain_keyStep (isFirst : Bool) (l : Lexeme) (htag : spot.tagged = false)
    (hdone : ∀ f ∈ done, f.Plain) (hstack : ∀ f ∈ stack, f.Plain) :
    (keyStep isFirst spot done stack l).Plain := by
  unfold keyStep
  cases l.kind with
  | text v => exact ⟨htag, hdone, plainKey_scalarSource _ _, hstack⟩
  | closeRecord =>
      dsimp only
      split
      · exact ⟨⟨htag, plain_fieldsBefore hdone trivial⟩, hstack⟩
      · exact plain_stop_record _ _ htag hdone hstack
  | finish =>
      dsimp only
      split <;> exact plain_stop_record _ _ htag hdone hstack
  | broken b isText => cases isText <;> exact plain_stop_record _ _ htag hdone hstack
  | _ => exact plain_stop_record _ _ htag hdone hstack

theorem plain_colonStep (l : Lexeme) (htag : spot.tagged = false) (hdone : ∀ f ∈ done, f.Plain)
    (hkey : key.PlainKey) (hstack : ∀ f ∈ stack, f.Plain) :
    (colonStep spot done key stack l).Plain := by
  have hopen (keyed : Place) : ∀ f ∈ Frame.record spot done key keyed :: stack, f.Plain :=
    List.forall_mem_cons.2 ⟨⟨htag, hdone, hkey⟩, hstack⟩
  unfold colonStep
  cases l.kind with
  | colon => exact ⟨by simp, hopen _⟩
  | _ => exact plain_stop_broken _ (hopen _)

theorem plain_behindStep {s : Source} (l : Lexeme) (hs : s.Plain)
    (hstack : ∀ f ∈ stack, f.Plain) : (behindStep s stack l).Plain := by
  cases stack with
  | nil =>
      unfold behindStep
      cases l.kind <;> exact hs
  | cons f rest =>
      obtain ⟨hf, hrest⟩ := List.forall_mem_cons.1 hstack
      cases f with
      | list spot done =>
          obtain ⟨htag, hdone⟩ := hf
          have hitems (p : Place) : ∀ e ∈ (s, p) :: done, e.1.Plain :=
            List.forall_mem_cons.2 ⟨hs, hdone⟩
          unfold behindStep
          cases l.kind with
          | closeList => exact ⟨⟨htag, plain_itemsBefore (hitems _) trivial⟩, hrest⟩
          | comma => exact ⟨by rintro _ ⟨⟩; exact hs, hstack⟩
          | _ => exact plain_stop_list _ htag (hitems _) hrest
      | record spot done key keyed =>
          obtain ⟨htag, hdone, hkey⟩ := hf
          have hfields (p : Place) : ∀ f ∈ (⟨key, keyed, s, p⟩ : Field) :: done, f.Plain :=
            List.forall_mem_cons.2 ⟨⟨hkey, hs⟩, hdone⟩
          unfold behindStep
          cases l.kind with
          | closeRecord => exact ⟨⟨htag, plain_fieldsBefore (hfields _) trivial⟩, hrest⟩
          | comma => exact ⟨htag, hfields _, hrest⟩
          | _ => exact plain_stop_record _ _ htag (hfields _) hrest

theorem plain_step {st : State} (l : Lexeme) (h : st.Plain) : (step st l).Plain := by
  cases st with
  | value turn stack =>
      obtain ⟨hturn, hstack⟩ := h
      unfold step
      split
      next before spot done rest heq =>
        cases heq
        obtain ⟨hf, hrest⟩ := List.forall_mem_cons.1 hstack
        refine plain_valueStep _ l (List.forall_mem_cons.2 ⟨⟨hf.1, ?_⟩, hrest⟩)
        exact List.forall_mem_cons.2 ⟨hturn _ rfl, hf.2⟩
      next heq =>
        cases heq
        exact plain_valueStep turn l hstack
      all_goals contradiction
  | key isFirst spot done stack => exact plain_keyStep isFirst l h.1 h.2.1 h.2.2
  | colon spot done key stack => exact plain_colonStep l h.1 h.2.1 h.2.2.1 h.2.2.2
  | behind s stack => exact plain_behindStep l h.1 h.2
  | finished r => exact h

theorem plain_foldl {st : State} (ls : List Lexeme) (h : st.Plain) : (ls.foldl step st).Plain := by
  induction ls generalizing st with
  | nil => exact h
  | cons l rest ih => exact ih (plain_step l h)

/-- The source of a JSON text is plain. -/
theorem plain_read (text : String) : (read text).root.Plain := by
  have hstate : ((lexemes text).foldl step (.value .root [])).Plain :=
    plain_foldl (lexemes text) ⟨by simp, by simp⟩
  unfold read
  revert hstate
  generalize (lexemes text).foldl step (.value .root []) = st
  intro hstate
  cases st with
  | finished r => exact hstate
  | behind s stack =>
      cases stack with
      | nil => exact hstate.1
      | cons _ _ => exact trivial
  | _ => exact trivial

/-- The keys of a document that is taken of a JSON text are texts. -/
theorem over_of_content_read {text : String} {room : Nat} {d : Doc}
    (h : (read text).root.content room = .ok d) : d.Over fun _ => True :=
  Source.over_of_content (plain_read text) h

end Json

end FlowArtifact
