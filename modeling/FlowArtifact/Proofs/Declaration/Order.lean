import FlowArtifact.Proofs.Declaration.Restoring
import FlowArtifact.Proofs.Value.Order

/-!
# Declarations and the order of fields

Each declaration is read from a document whatever the order of the fields in it
is.  What a field says is read by itself and put into the declaration, the kind of
an element is found wherever it stands, and the elements of an artifact are told
from its attributes by their name.
-/

namespace FlowArtifact

open Doc (Reordered ReorderedItems ReorderedFields keyed under)

variable {d e : Doc}

/-! ## Parameters and groups -/

namespace Parameter

def setField (name : String) (d : Doc) (p : Option String × Option Value) :
    Fit (Option String × Option Value) :=
  if name = "name" then do pure (some (← Doc.asText d), p.2)
  else do pure (p.1, some (← Value.ofDoc d))

theorem setField_name : Doc.Puts setField "name" Doc.asText fun p t => (some t, p.2) :=
  fun _ _ => rfl

theorem setField_value : Doc.Puts setField "value" Value.ofDoc fun p v => (p.1, some v) :=
  fun _ _ => rfl

theorem ofDoc_reordered (h : d.Reordered e) : (ofDoc d).toOption = (ofDoc e).toOption := by
  cases h with
  | scalar s => rfl
  | list hitems =>
      rcases hitems with - | ⟨hname, - | ⟨hvalue, hrest⟩⟩
      · rfl
      · simp only [ofDoc, toOption_bind, Doc.asText_reordered hname]
      · cases hrest <;>
          simp [ofDoc, toOption_bind, Doc.asText_reordered hname, Value.ofDoc_reordered hvalue]
  | record hnames hfields hperm =>
      have hset : Doc.OrderFree setField ["name", "value"] :=
        Doc.orderFree_pair setField_name setField_value (fun _ _ _ => rfl)
          (fun _ _ => Doc.asText_reordered) fun _ _ => Value.ofDoc_reordered
      refine Doc.bind_readFields_reordered (Doc.fieldName_text _) hset hnames hfields hperm
        (none, none) fun p seen seen' hseen => ?_
      simp only [toOption_bind, Doc.require_congr hseen]

end Parameter

namespace ParameterGroup

def setField (name : String) (d : Doc) (g : ParameterGroup) : Fit ParameterGroup :=
  if name = "name" then do pure { g with name := ← Doc.asText d }
  else do pure { g with parameters := ← Doc.asNameMap Value.ofDoc d }

theorem setField_name : Doc.Puts setField "name" Doc.asText fun g t => { g with name := t } :=
  fun _ _ => rfl

theorem setField_parameters : Doc.Puts setField "parameters" (Doc.asNameMap Value.ofDoc)
    fun g m => { g with parameters := m } :=
  fun _ _ => rfl

theorem asNameMap_reordered (h : d.Reordered e) :
    (Doc.asNameMap Value.ofDoc d).toOption = (Doc.asNameMap Value.ofDoc e).toOption :=
  Doc.asNameMap_reordered (fun _ _ => Value.ofDoc_reordered) h

theorem ofDoc_reordered (h : d.Reordered e) : (ofDoc d).toOption = (ofDoc e).toOption := by
  cases h with
  | scalar s => rfl
  | list hitems =>
      rcases hitems with - | ⟨hname, - | ⟨hparameters, hrest⟩⟩
      · rfl
      · simp only [ofDoc, toOption_bind, Doc.asText_reordered hname]
      · cases hrest <;>
          simp [ofDoc, toOption_bind, Doc.asText_reordered hname, asNameMap_reordered hparameters]
  | record hnames hfields hperm =>
      have hset : Doc.OrderFree setField ["name", "parameters"] :=
        Doc.orderFree_pair setField_name setField_parameters (fun _ _ _ => rfl)
          (fun _ _ => Doc.asText_reordered) fun _ _ => asNameMap_reordered
      refine Doc.bind_readFields_reordered (Doc.fieldName_text _) hset hnames hfields hperm
        ⟨"", .empty⟩ fun g seen seen' hseen => ?_
      simp only [toOption_bind, Doc.require_congr hseen]

theorem listOfDoc_reordered (h : d.Reordered e) :
    (listOfDoc d).toOption = (listOfDoc e).toOption :=
  Doc.bind_asList_reordered (fun _ _ => ofDoc_reordered) h

end ParameterGroup

/-! ## Attributes -/

namespace Attributes

theorem setField_name : Doc.Puts setField "name" Doc.asText fun a t => { a with name := t } :=
  fun _ _ => rfl

theorem setField_extension : Doc.Puts setField "declaringExtension" Doc.asText
    fun a t => { a with extension := t } :=
  fun _ _ => rfl

theorem setField_metadata : Doc.Puts setField "metadataProperties" (Doc.asNameMap Datum.ofDoc)
    fun a m => { a with metadata := m } :=
  fun _ _ => rfl

theorem setField_custom : Doc.Puts setField "customConfigurationParameters"
    (fun d => Doc.asList d >>= fun ds => ds.mapM Parameter.ofDoc)
    fun a ps => { a with custom := ps } := by
  intro d a
  simp only [setField, String.reduceEq, if_false]
  cases Doc.asList d <;> rfl

theorem orderFree_setField : Doc.OrderFree setField fieldNames where
  read := by
    simp only [fieldNames, List.forall_mem_cons, List.not_mem_nil, false_implies, implies_true,
      and_true]
    refine ⟨setField_name.reordered fun _ _ => Doc.asText_reordered,
      setField_extension.reordered fun _ _ => Doc.asText_reordered,
      setField_metadata.reordered fun _ _ => ?_, setField_custom.reordered fun _ _ => ?_⟩
    · exact Doc.asNameMap_reordered fun _ _ => Datum.ofDoc_reordered
    · exact Doc.bind_asList_reordered fun _ _ => Parameter.ofDoc_reordered
  commute := by
    simp only [fieldNames, List.pairwise_cons, List.forall_mem_cons, List.not_mem_nil,
      false_implies, implies_true, List.Pairwise.nil, and_true]
    exact ⟨⟨setField_name.commute setField_extension fun _ _ _ => rfl,
        setField_name.commute setField_metadata fun _ _ _ => rfl,
        setField_name.commute setField_custom fun _ _ _ => rfl⟩,
      ⟨setField_extension.commute setField_metadata fun _ _ _ => rfl,
        setField_extension.commute setField_custom fun _ _ _ => rfl⟩,
      setField_metadata.commute setField_custom fun _ _ _ => rfl⟩

theorem ofFields_reordered {l m n : List (String × Doc)} (hnames : (l.map (·.1)).Nodup)
    (hfields : ReorderedFields l m) (hperm : m.Perm n) :
    (ofFields (keyed l)).toOption = (ofFields (keyed n)).toOption := by
  refine Doc.bind_readFields_reordered attributeName_text orderFree_setField hnames hfields hperm
    {} fun a seen seen' hseen => ?_
  simp only [toOption_bind, Doc.require_congr hseen]

/-- A declaration is put together from its own fields and its attributes. -/
theorem withFields_reordered {σ τ : Type} {nameOf : Head → Fit (Option String)}
    {set : String → Doc → σ → Fit σ} {known : List String}
    (hname : ∀ s, nameOf (.scalar (.text s)) = .ok (if s ∈ known then some s else none))
    (hset : Doc.OrderFree set known) {l m n : List (String × Doc)} (hnames : (l.map (·.1)).Nodup)
    (hfields : ReorderedFields l m) (hperm : m.Perm n) (init : σ) (put : σ → Attributes → τ) :
    (Doc.readFields nameOf set [] init (keyed l) >>= fun r =>
        (ofFields (keyed l)).map (put r.1)).toOption =
      (Doc.readFields nameOf set [] init (keyed n) >>= fun r =>
        (ofFields (keyed n)).map (put r.1)).toOption := by
  have hattributes := ofFields_reordered hnames hfields hperm
  refine Doc.bind_readFields_reordered hname hset hnames hfields hperm init
    fun a seen seen' _ => ?_
  rw [toOption_map, toOption_map, hattributes]

end Attributes

/-! ## Connections and configurations -/

namespace Connection

def setField (_ : String) (d : Doc) (c : Connection) : Fit Connection := do
  pure { c with groups := ← ParameterGroup.listOfDoc d }

theorem setField_groups : Doc.Puts setField "parameterGroups" ParameterGroup.listOfDoc
    fun c gs => { c with groups := gs } :=
  fun _ _ => rfl

theorem ofDoc_reordered (h : d.Reordered e) : (ofDoc d).toOption = (ofDoc e).toOption := by
  cases h with
  | record hnames hfields hperm =>
      have hread := setField_groups.reordered fun _ _ => ParameterGroup.listOfDoc_reordered
      have hset : Doc.OrderFree setField ["parameterGroups"] :=
        ⟨List.forall_mem_singleton.2 hread, List.pairwise_singleton _ _⟩
      exact Attributes.withFields_reordered (Doc.textFieldName_text _) hset hnames hfields hperm {}
        fun c a => { c with attributes := a }
  | _ => rfl

end Connection

namespace Configuration

def readConnection : Doc → Fit (Option Connection)
  | .scalar .null => .ok none
  | d => (Connection.ofDoc d).map some

theorem readConnection_reordered (h : d.Reordered e) :
    (readConnection d).toOption = (readConnection e).toOption := by
  have hread := Connection.ofDoc_reordered h
  cases h with
  | record hnames hfields hperm =>
      simp only [Doc.named] at hread
      simp only [Doc.named, readConnection, toOption_map, hread]
  | _ => rfl

theorem setField_refName : Doc.Puts setField "refName" Doc.asOptionalText
    fun c t => { c with refName := t } :=
  fun _ _ => rfl

theorem setField_groups : Doc.Puts setField "parameterGroups" ParameterGroup.listOfDoc
    fun c gs => { c with groups := gs } :=
  fun _ _ => rfl

theorem setField_connection : Doc.Puts setField "connection" readConnection
    fun c n => { c with connection := n } := by
  intro d c
  rcases d with (_ | _ | _ | _ | _) | _ | _ | fields
  case record =>
    simp only [setField, readConnection, String.reduceEq, if_false]
    cases Connection.ofDoc (.record fields) <;> rfl
  all_goals rfl

def ownNames : List String := ["refName", "parameterGroups", "connection"]

theorem orderFree_setField : Doc.OrderFree setField ownNames where
  read := by
    simp only [ownNames, List.forall_mem_cons, List.not_mem_nil, false_implies, implies_true,
      and_true]
    exact ⟨setField_refName.reordered fun _ _ => Doc.asOptionalText_reordered,
      setField_groups.reordered fun _ _ => ParameterGroup.listOfDoc_reordered,
      setField_connection.reordered fun _ _ => readConnection_reordered⟩
  commute := by
    simp only [ownNames, List.pairwise_cons, List.forall_mem_cons, List.not_mem_nil,
      false_implies, implies_true, List.Pairwise.nil, and_true]
    exact ⟨⟨setField_refName.commute setField_groups fun _ _ _ => rfl,
        setField_refName.commute setField_connection fun _ _ _ => rfl⟩,
      setField_groups.commute setField_connection fun _ _ _ => rfl⟩

theorem ofDoc_reordered (h : d.Reordered e) : (ofDoc d).toOption = (ofDoc e).toOption := by
  cases h with
  | record hnames hfields hperm =>
      exact Attributes.withFields_reordered (Doc.textFieldName_text _) orderFree_setField hnames
        hfields hperm {} fun c a => { c with attributes := a }
  | _ => rfl

end Configuration

/-! ## Components -/

namespace ComponentKind

theorem ofDoc_singleton_reordered (name : String) (h : d.Reordered e) :
    (ofDoc (.named [(name, d)])).toOption = (ofDoc (.named [(name, e)])).toOption := by
  cases h with
  | @record l m n hnames hfields hperm =>
      have hempty : l = [] ↔ n = [] := by
        rw [← List.length_eq_zero_iff, ← List.length_eq_zero_iff, ← hperm.length_eq,
          hfields.length_eq]
      simp only [Doc.named, List.map_cons, List.map_nil, ofDoc, toOption_bind]
      cases l <;> cases n <;> simp at hempty ⊢
  | _ => rfl

theorem ofDoc_of_length {fields : List (String × Doc)} (h : fields.length ≠ 1) :
    ofDoc (.named fields) = .error (.wrongValue .record "map with a single key") := by
  rcases fields with - | ⟨e, - | ⟨f, rest⟩⟩
  · rfl
  · exact absurd rfl h
  · rfl

theorem ofDoc_reordered (h : d.Reordered e) : (ofDoc d).toOption = (ofDoc e).toOption := by
  cases h with
  | @record l m n hnames hfields hperm =>
      have hlength : l.length = n.length := hfields.length_eq.trans hperm.length_eq
      rcases hfields with - | ⟨hvalue, - | ⟨-, -⟩⟩
      · rw [List.nil_perm.1 hperm]
      · rw [← List.singleton_perm.1 hperm]
        exact ofDoc_singleton_reordered _ hvalue
      · rw [ofDoc_of_length (by simp), ofDoc_of_length (by simp [← hlength])]
  | _ => rfl

end ComponentKind

namespace Component

theorem setAnyField_kind : Doc.Puts setAnyField "kind" ComponentKind.ofDoc
    fun c k => { c with kind := k } :=
  fun _ _ => rfl

theorem setAnyField_configRef : Doc.Puts setAnyField "configRef" Doc.asOptionalText
    fun c t => { c with configRef := t } :=
  fun _ _ => rfl

theorem setAnyField_groups : Doc.Puts setAnyField "parameterGroups" ParameterGroup.listOfDoc
    fun c gs => { c with groups := gs } :=
  fun _ _ => rfl

theorem setAnyField_components : Doc.Puts setAnyField "components" listOfDoc
    fun c cs => { c with components := cs } :=
  fun _ _ => rfl

theorem setAnyField_errorHandlers : Doc.Puts setAnyField "errorHandlers" listOfDoc
    fun c cs => { c with errorHandlers := cs } :=
  fun _ _ => rfl

theorem commute_setAnyField : fieldNames.Pairwise (Doc.Commute setAnyField) := by
  simp only [fieldNames, List.pairwise_cons, List.forall_mem_cons, List.not_mem_nil,
    false_implies, implies_true, List.Pairwise.nil, and_true]
  exact ⟨⟨setAnyField_kind.commute setAnyField_configRef fun _ _ _ => rfl,
      setAnyField_kind.commute setAnyField_groups fun _ _ _ => rfl,
      setAnyField_kind.commute setAnyField_components fun _ _ _ => rfl,
      setAnyField_kind.commute setAnyField_errorHandlers fun _ _ _ => rfl⟩,
    ⟨setAnyField_configRef.commute setAnyField_groups fun _ _ _ => rfl,
      setAnyField_configRef.commute setAnyField_components fun _ _ _ => rfl,
      setAnyField_configRef.commute setAnyField_errorHandlers fun _ _ _ => rfl⟩,
    ⟨setAnyField_groups.commute setAnyField_components fun _ _ _ => rfl,
      setAnyField_groups.commute setAnyField_errorHandlers fun _ _ _ => rfl⟩,
    setAnyField_components.commute setAnyField_errorHandlers fun _ _ _ => rfl⟩

def Same (d e : Doc) : Prop :=
  (ofDoc d).toOption = (ofDoc e).toOption ∧ (listOfDoc d).toOption = (listOfDoc e).toOption

theorem setAnyField_congr {name : String} (hname : name ∈ fieldNames) (h : d.Reordered e)
    (hsame : Same d e) (c : Component) :
    (setAnyField name d c).toOption = (setAnyField name e c).toOption := by
  simp only [fieldNames, List.mem_cons, List.not_mem_nil, or_false] at hname
  rcases hname with rfl | rfl | rfl | rfl | rfl
  · exact setAnyField_kind.reordered (fun _ _ => ComponentKind.ofDoc_reordered) d e h c
  · exact setAnyField_configRef.reordered (fun _ _ => Doc.asOptionalText_reordered) d e h c
  · exact setAnyField_groups.reordered (fun _ _ => ParameterGroup.listOfDoc_reordered) d e h c
  · rw [setAnyField_components.toOption_eq, setAnyField_components.toOption_eq, hsame.2]
  · rw [setAnyField_errorHandlers.toOption_eq, setAnyField_errorHandlers.toOption_eq, hsame.2]

theorem ofDoc_record_congr {l m n : List (String × Doc)} (hnames : (l.map (·.1)).Nodup)
    (hfields : ReorderedFields l m) (hperm : m.Perm n)
    (hset : List.Forall₂ (fun e f => e.1 = f.1 ∧ (e.1 ∈ fieldNames → ∀ c,
      (setAnyField e.1 e.2 c).toOption = (setAnyField e.1 f.2 c).toOption)) l m) :
    (ofDoc (.named l)).toOption = (ofDoc (.named n)).toOption := by
  have hattributes := Attributes.ofFields_reordered hnames hfields hperm
  simp only [Doc.named_eq_record, ofDoc, readFields_eq]
  refine Doc.bind_readFields_congr_perm (Doc.textFieldName_text _) commute_setAnyField hset hperm
    (hfields.names_eq ▸ hnames) {} fun c seen seen' hseen => ?_
  simp only [toOption_bind, Doc.require_congr hseen, hattributes]

mutual
/-- A document is read to the same component whatever the order of its fields is. -/
theorem same_of_reordered : {d e : Doc} → d.Reordered e → Same d e
  | _, _, .scalar s => ⟨rfl, rfl⟩
  | _, _, .list hitems => by
    refine ⟨rfl, ?_⟩
    rw [listOfDoc, listOfDoc, ofDocs_reordered hitems]
  | _, _, .record hnames hfields hperm => by
    exact ⟨ofDoc_record_congr hnames hfields hperm (setAnyField_reordered hfields), rfl⟩

theorem ofDocs_reordered : {ds es : List Doc} → ReorderedItems ds es →
    (ofDocs ds).toOption = (ofDocs es).toOption
  | _, _, .nil => rfl
  | _, _, .cons hitem hrest => by
    simp only [ofDocs, toOption_bind, (same_of_reordered hitem).1, ofDocs_reordered hrest]

theorem setAnyField_reordered : {l m : List (String × Doc)} → ReorderedFields l m →
    List.Forall₂ (fun e f => e.1 = f.1 ∧ (e.1 ∈ fieldNames → ∀ c,
      (setAnyField e.1 e.2 c).toOption = (setAnyField e.1 f.2 c).toOption)) l m
  | _, _, .nil => .nil
  | _, _, .cons hvalue hrest =>
    .cons ⟨rfl, fun hname => setAnyField_congr hname hvalue (same_of_reordered hvalue)⟩
      (setAnyField_reordered hrest)
end

theorem listOfDoc_reordered (h : d.Reordered e) :
    (listOfDoc d).toOption = (listOfDoc e).toOption :=
  (same_of_reordered h).2

end Component

/-! ## Constructs and top-level parameters -/

namespace Construct

theorem setField_refName : Doc.Puts setField "refName" Doc.asOptionalText
    fun c t => { c with refName := t } :=
  fun _ _ => rfl

theorem setField_groups : Doc.Puts setField "parameterGroups" ParameterGroup.listOfDoc
    fun c gs => { c with groups := gs } :=
  fun _ _ => rfl

theorem setField_components : Doc.Puts setField "components" Component.listOfDoc
    fun c cs => { c with components := cs } :=
  fun _ _ => rfl

theorem setField_errorHandlers : Doc.Puts setField "errorHandlers" Component.listOfDoc
    fun c cs => { c with errorHandlers := cs } :=
  fun _ _ => rfl

def ownNames : List String := ["refName", "parameterGroups", "components", "errorHandlers"]

theorem orderFree_setField : Doc.OrderFree setField ownNames where
  read := by
    simp only [ownNames, List.forall_mem_cons, List.not_mem_nil, false_implies, implies_true,
      and_true]
    exact ⟨setField_refName.reordered fun _ _ => Doc.asOptionalText_reordered,
      setField_groups.reordered fun _ _ => ParameterGroup.listOfDoc_reordered,
      setField_components.reordered fun _ _ => Component.listOfDoc_reordered,
      setField_errorHandlers.reordered fun _ _ => Component.listOfDoc_reordered⟩
  commute := by
    simp only [ownNames, List.pairwise_cons, List.forall_mem_cons, List.not_mem_nil,
      false_implies, implies_true, List.Pairwise.nil, and_true]
    exact ⟨⟨setField_refName.commute setField_groups fun _ _ _ => rfl,
        setField_refName.commute setField_components fun _ _ _ => rfl,
        setField_refName.commute setField_errorHandlers fun _ _ _ => rfl⟩,
      ⟨setField_groups.commute setField_components fun _ _ _ => rfl,
        setField_groups.commute setField_errorHandlers fun _ _ _ => rfl⟩,
      setField_components.commute setField_errorHandlers fun _ _ _ => rfl⟩

theorem ofDoc_reordered (h : d.Reordered e) : (ofDoc d).toOption = (ofDoc e).toOption := by
  cases h with
  | record hnames hfields hperm =>
      exact Attributes.withFields_reordered (Doc.textFieldName_text _) orderFree_setField hnames
        hfields hperm {} fun c a => { c with attributes := a }
  | _ => rfl

end Construct

namespace TopLevelParameter

theorem setField_refName : Doc.Puts setField "refName" Doc.asOptionalText
    fun p t => { p with refName := t } :=
  fun _ _ => rfl

theorem setField_value : Doc.Puts setField "value" ObjectValue.ofDoc
    fun p v => { p with value := v } :=
  fun _ _ => rfl

theorem ofDoc_reordered (h : d.Reordered e) : (ofDoc d).toOption = (ofDoc e).toOption := by
  cases h with
  | record hnames hfields hperm =>
      have hset : Doc.OrderFree setField ["refName", "value"] :=
        Doc.orderFree_pair setField_refName setField_value (fun _ _ _ => rfl)
          (fun _ _ => Doc.asOptionalText_reordered) fun _ _ => ObjectValue.ofDoc_reordered
      exact Attributes.withFields_reordered (Doc.textFieldName_text _) hset hnames hfields hperm {}
        fun p a => { p with attributes := a }
  | _ => rfl

end TopLevelParameter

/-! ## Elements and artifacts -/

namespace GlobalElement

theorem kindOf?_reordered (h : d.Reordered e) : kindOf? d = kindOf? e := by
  cases h <;> rfl

theorem ofContent_reordered (kind : Kind) (h : d.Reordered e) :
    (ofContent kind d).toOption = (ofContent kind e).toOption := by
  cases kind with
  | configuration => simp only [ofContent, toOption_bind, Configuration.ofDoc_reordered h]
  | construct => simp only [ofContent, toOption_bind, Construct.ofDoc_reordered h]
  | topLevelParameter => simp only [ofContent, toOption_bind, TopLevelParameter.ofDoc_reordered h]

theorem ofDoc?_named {l : List (String × Doc)} (hnames : (l.map (·.1)).Nodup) :
    ofDoc? (.named l) = ((under "kind" (keyed l)).head?.map kindOf?).join.bind fun kind =>
      (ofContent kind (.named (l.filter (·.1 ≠ "kind")))).toOption := by
  have hread : ofDoc? (.named l) = (splitKind? none [] (keyed l)).bind
      fun r => (ofContent r.1 (.record r.2.reverse)).toOption := rfl
  rw [hread]
  obtain ⟨hunder, hnone⟩ | ⟨pre, d, post, rfl, hunder, hfilter, hothers⟩ :=
    Doc.under_eq_nil_or "kind" hnames
  · have hsplit : splitKind? none [] (keyed (l ++ [])) = none := splitKind?_keyed hnone none []
    rw [List.append_nil] at hsplit
    rw [hsplit, hunder]
    rfl
  · obtain ⟨hpre, hpost⟩ := List.forall_mem_append.1 hothers
    have hrest (kind : Kind) : splitKind? (some kind) (keyed pre).reverse (keyed (post ++ [])) =
        some (kind, (keyed post).reverse ++ (keyed pre).reverse) :=
      splitKind?_keyed hpost _ _
    have hsplit : splitKind? none [] (keyed (pre ++ ("kind", d) :: post)) =
        (kindOf? d).map fun kind => (kind, (keyed post).reverse ++ (keyed pre).reverse) := by
      have hstep : splitKind? none (keyed pre).reverse (keyed (("kind", d) :: post)) =
          (kindOf? d).bind fun kind => splitKind? (some kind) (keyed pre).reverse (keyed post) :=
        rfl
      rw [List.append_nil] at hrest
      rw [splitKind?_keyed hpre, List.append_nil, hstep]
      simp only [hrest]
      exact Option.map_eq_bind.symm
    have hkind : ([d].head?.map kindOf?).join = kindOf? d := rfl
    rw [hsplit, hunder, hfilter, hkind]
    cases kindOf? d with
    | none => rfl
    | some kind => simp [Doc.named, keyed]

theorem ofDoc?_reordered (h : d.Reordered e) : ofDoc? d = ofDoc? e := by
  cases h with
  | record hnames hfields hperm =>
      have hnames' := (hperm.map _).nodup_iff.1 (hfields.names_eq ▸ hnames)
      have hkind := Doc.map_head?_under_reordered (fun _ _ => kindOf?_reordered) hnames hfields
        hperm "kind"
      have hcontent := Reordered.record_filter (· ≠ "kind") hnames hfields hperm
      rw [ofDoc?_named hnames, ofDoc?_named hnames', hkind]
      simp only [ofContent_reordered _ hcontent]
  | _ => rfl

theorem listOfDoc?_reordered (h : d.Reordered e) : listOfDoc? d = listOfDoc? e := by
  cases h with
  | list hitems =>
      have hread := hitems.forall₂ fun _ _ => ofDoc?_reordered
      simp only [listOfDoc?]
      clear hitems
      induction hread with
      | nil => rfl
      | cons hitem _ ih => simp only [List.mapM_cons, hitem, ih]
  | _ => rfl

end GlobalElement

namespace Artifact

theorem ofDoc?_named {l : List (String × Doc)} (hnames : (l.map (·.1)).Nodup) :
    ofDoc? (.named l) = (((under "globalElements" (keyed l)).head?.map
      GlobalElement.listOfDoc?).getD (some [])).bind fun elements =>
        (Attributes.ofFields (keyed (l.filter (·.1 ≠ "globalElements")))).toOption.map
          fun attributes => ⟨attributes, elements⟩ := by
  have hread : ofDoc? (.named l) = splitElements? none [] (keyed l) := rfl
  rw [hread]
  obtain ⟨hunder, hnone⟩ | ⟨pre, d, post, rfl, hunder, hfilter, hothers⟩ :=
    Doc.under_eq_nil_or "globalElements" hnames
  · have hsplit : splitElements? none [] (keyed (l ++ [])) =
        splitElements? none ((keyed l).reverse ++ []) [] := splitElements?_keyed hnone none []
    have hfilter : l.filter (·.1 ≠ "globalElements") = l := by
      simpa [List.filter_eq_self] using hnone
    rw [List.append_nil, List.append_nil] at hsplit
    rw [hsplit, hunder, hfilter, splitElements?, List.reverse_reverse]
    rfl
  · obtain ⟨hpre, hpost⟩ := List.forall_mem_append.1 hothers
    have hrest (elements : List GlobalElement) :
        splitElements? (some elements) (keyed pre).reverse (keyed (post ++ [])) =
          splitElements? (some elements) ((keyed post).reverse ++ (keyed pre).reverse) [] :=
      splitElements?_keyed hpost _ _
    have hstep : splitElements? none (keyed pre).reverse (keyed (("globalElements", d) :: post)) =
        (GlobalElement.listOfDoc? d).bind fun elements =>
          splitElements? (some elements) (keyed pre).reverse (keyed post) :=
      rfl
    have helements : (([d].head?.map GlobalElement.listOfDoc?).getD (some [])) =
        GlobalElement.listOfDoc? d := rfl
    rw [List.append_nil] at hrest
    rw [splitElements?_keyed hpre, List.append_nil, hstep, hunder, hfilter, helements]
    simp only [hrest, splitElements?, ← List.reverse_append, List.reverse_reverse]
    simp [keyed]

theorem ofDoc?_reordered (h : d.Reordered e) : ofDoc? d = ofDoc? e := by
  cases h with
  | record hnames hfields hperm =>
      have hnames' := (hperm.map _).nodup_iff.1 (hfields.names_eq ▸ hnames)
      have helements := Doc.map_head?_under_reordered
        (fun _ _ => GlobalElement.listOfDoc?_reordered) hnames hfields hperm "globalElements"
      have hattributes := Attributes.ofFields_reordered
        (hnames.sublist (List.filter_sublist.map _)) (hfields.filter (· ≠ "globalElements"))
        (hperm.filter (decide <| ·.1 ≠ "globalElements"))
      rw [ofDoc?_named hnames, ofDoc?_named hnames', helements]
      simp only [hattributes]
  | _ => rfl

end Artifact

end FlowArtifact
