import FlowArtifact.Proofs.Location.Replay

/-!
# Runs of the location builder

A run is a sequence of operations on a builder, from the empty one, that all
succeed.  The operations check different things, and the four that append a
token check nothing about the part before it.  What every run keeps is the
invariant `Sound`; whether the location it ends in can be parsed back depends on
one thing more, `Numbered`.
-/

namespace FlowArtifact.Location

/-- Two parts are not numbers both. -/
def Apart (last part : String) : Prop := ¬(isNumeric part = true ∧ isNumeric last = true)

/-- Whatever follows `processors` is a number. -/
def Numbered (parts : List String) : Prop :=
  parts.IsChain fun last part => last = Token.processors.text → isNumeric part = true

instance (parts : List String) : Decidable (Numbered parts) :=
  inferInstanceAs (Decidable (parts.IsChain _))

theorem isChain_mayFollow_iff (parts : List String) :
    parts.IsChain MayFollow ↔ Numbered parts ∧ parts.IsChain Apart := by
  induction parts with
  | nil => simp [Numbered]
  | cons last parts ih =>
      cases parts with
      | nil => simp [Numbered]
      | cons part parts =>
          unfold Numbered at ih ⊢
          simp only [List.isChain_cons_cons, ih, MayFollow, Apart]
          tauto

namespace Builder

inductive Call where
  | globalName (name : String)
  | part (text : String)
  | token (t : Token)
  | index (n : Nat)
deriving DecidableEq

def apply (b : Builder) : Call → Except Error Builder
  | .globalName name => b.setGlobalName name
  | .part text => b.addPart text
  | .token t => b.addToken t
  | .index n => b.addIndex n

def run (b : Builder) (calls : List Call) : Except Error Builder := calls.foldlM apply b

structure Sound (b : Builder) : Prop where
  named : ∀ name ∈ b.globalName, checkGlobalName name = .ok ()
  anchored : b.globalName = none → b.path = []
  texts : ∀ part ∈ b.path, checkText .part part = .ok ()
  apart : b.path.IsChain fun part last => Apart last part

theorem sound_empty : Sound empty where
  named := by simp [empty]
  anchored := fun _ => rfl
  texts := by simp [empty]
  apart := by simp [empty]

theorem sound_push {b : Builder} {part : String} (hb : b.Sound) (hname : b.globalName.isSome)
    (ht : checkText .part part = .ok ()) (ha : ∀ last ∈ b.path.head?, Apart last part) :
    (b.push part).Sound where
  named := hb.named
  anchored h := by
    rw [globalName_push] at h
    simp [h] at hname
  texts := List.forall_mem_cons.2 ⟨ht, hb.texts⟩
  apart := hb.apart.cons ha

theorem sound_setGlobalName {b b' : Builder} {name : String}
    (h : b.setGlobalName name = .ok b') : b'.Sound := by
  unfold setGlobalName at h
  split at h
  · simp at h
  · obtain ⟨_, hcheck, hb'⟩ := bind_eq_ok_iff.1 h
    cases hb'
    refine ⟨?_, ?_, ?_, ?_⟩
    · simpa using hcheck
    · simp
    · simp
    · simp

theorem sound_addPart {b b' : Builder} {part : String} (hb : b.Sound)
    (h : b.addPart part = .ok b') : b'.Sound := by
  obtain ⟨hname, ht, hlast, rfl⟩ := (addPart_eq_ok_iff b b' part).1 h
  exact sound_push hb hname ht fun last hl => (hlast last hl).2

theorem addToken_eq_ok_iff (b b' : Builder) (t : Token) :
    b.addToken t = .ok b' ↔ b.globalName.isSome ∧ b' = b.push t.text := by
  unfold addToken requireGlobalName
  cases b.globalName with
  | none => simp
  | some name => simp [eq_comm]

theorem addIndex_eq_ok_iff (b b' : Builder) (n : Nat) :
    b.addIndex n = .ok b' ↔
      b.globalName.isSome ∧ (∀ last ∈ b.path.head?, isNumeric last = false) ∧
        b' = b.push (String.ofList (digitChars n)) := by
  unfold addIndex requireGlobalName
  generalize String.ofList (digitChars n) = index
  cases b.globalName with
  | none => simp
  | some name =>
      cases b.path with
      | nil => simp [@eq_comm _ b']
      | cons last rest => by_cases hl : isNumeric last = true <;> simp [hl, @eq_comm _ b']

theorem sound_addToken {b b' : Builder} {t : Token} (hb : b.Sound)
    (h : b.addToken t = .ok b') : b'.Sound := by
  obtain ⟨hname, rfl⟩ := (addToken_eq_ok_iff b b' t).1 h
  apply sound_push hb hname (checkText_token t)
  -- A reserved word is no number, so it may stand behind one.
  intro last _ hboth
  simp [isNumeric_token] at hboth

theorem sound_addIndex {b b' : Builder} {n : Nat} (hb : b.Sound)
    (h : b.addIndex n = .ok b') : b'.Sound := by
  obtain ⟨hname, hlast, rfl⟩ := (addIndex_eq_ok_iff b b' n).1 h
  apply sound_push hb hname (checkText_of_isNumeric (isNumeric_digitChars n))
  intro last hl hboth
  simp [hlast last hl] at hboth

theorem sound_apply {b b' : Builder} {call : Call} (hb : b.Sound)
    (h : b.apply call = .ok b') : b'.Sound := by
  cases call with
  | globalName name => exact sound_setGlobalName h
  | part text => exact sound_addPart hb h
  | token t => exact sound_addToken hb h
  | index n => exact sound_addIndex hb h

theorem sound_run {calls : List Call} {b b' : Builder} (hb : b.Sound)
    (h : b.run calls = .ok b') : b'.Sound := by
  induction calls generalizing b with
  | nil =>
      cases h
      exact hb
  | cons call calls ih =>
      unfold run at h
      rw [List.foldlM_cons] at h
      obtain ⟨c, hc, hrest⟩ := bind_eq_ok_iff.1 h
      exact ih (sound_apply hb hc) hrest

/-- A text fills a builder as the operations on its pieces do. -/
theorem ofText_eq_run (text : String) :
    ofText text = empty.run (.globalName (Text.split separator text).1 ::
      (Text.split separator text).2.map .part) := by
  rw [run, List.foldlM_cons]
  simp only [List.foldlM_map, apply, ofText]

theorem sound_ofText {text : String} {b : Builder} (h : ofText text = .ok b) : b.Sound := by
  rw [ofText_eq_run] at h
  exact sound_run sound_empty h

end Builder

end FlowArtifact.Location
