/- Every record of an index is read back from its JSON form. -/
import SourceAtlas.Codec.Index
import SourceAtlas.Proofs.Decimal
import SourceAtlas.Proofs.Json.Document
import SourceAtlas.Proofs.TextMap

namespace SourceAtlas

namespace Json

variable {α β γ : Type}

/-- What is encoded can be written, and the decoder inverts the encoder. -/
structure Faithful (encode : α → Json) (decode : Json → Option α) : Prop where
  canonical : ∀ value, Canonical (encode value)
  back : ∀ value, decode (encode value) = some value

theorem mapM_map_eq_some {items : List α} {encode : α → β} {decode : β → Option γ} (result : α → γ)
    (each : ∀ item ∈ items, decode (encode item) = some (result item)) :
    (items.map encode).mapM decode = some (items.map result) := by
  induction items with
  | nil => rfl
  | cons item items ih =>
      have first := each item (by simp)
      have others := ih fun other member => each other (List.mem_cons_of_mem _ member)
      simp [List.mapM_cons, first, others]

theorem canonical_record {fields : List (String × Json)}
    (values : ∀ field ∈ fields, Canonical field.2) :
    Canonical (record fields) := by
  refine .object ?_ ?_ <;>
  · intro field member
    obtain ⟨⟨key, value⟩, inside, rfl⟩ := List.mem_map.mp member
    first
    | exact ⟨key, rfl⟩
    | exact values (key, value) inside

theorem faithful_text : Faithful text text? := ⟨.string, unescape?_escape⟩

theorem faithful_word : Faithful word word? where
  canonical value := .number (numeral_toString value.toNat)
  back value := by
    have small : value.toNat < UInt64.size := value.toNat_lt_size
    have read : (word value).natural? = some value.toNat := by
      simp only [word, nat, natural?, natToken?_toString, Option.filter_some,
        decide_eq_true small, if_true]
    rw [word?, read, Option.map_some, UInt64.ofNat_toNat]

theorem faithful_choice {name : α → String} {options : List α}
    (finds : ∀ value, options.find? (fun option => name option = name value) = some value) :
    Faithful (fun value => text (name value)) (choice? name options) where
  canonical value := .string (name value)
  back value := by simpa [text, choice?] using finds value

theorem Faithful.list {encode : α → Json} {decode : Json → Option α}
    (faithful : Faithful encode decode) :
    Faithful (fun values => .array (values.map encode)) (list? decode) where
  canonical values := by
    refine .array fun item member => ?_
    obtain ⟨value, _, rfl⟩ := List.mem_map.mp member
    exact faithful.canonical value
  back values := by
    have read := mapM_map_eq_some id fun value (_ : value ∈ values) => faithful.back value
    rwa [List.map_id] at read

/-- A map is filled again with the entries that it was written by. -/
theorem Faithful.map {encode : α → Json} {decode : Json → Option α}
    (faithful : Faithful encode decode) :
    Faithful (ofMap encode) (map? decode) where
  canonical map := by
    refine canonical_record fun field member => ?_
    obtain ⟨⟨key, value⟩, _, rfl⟩ := List.mem_map.mp member
    exact faithful.canonical value
  back map := by
    have fields : ofMap encode map =
        .object (map.toList.map fun entry => (escape entry.1, encode entry.2)) := by
      simp [ofMap, record]
    rw [fields, map?, mapM_map_eq_some id, List.map_id]
    · exact congrArg some (TextMap.fill_toList map)
    · intro entry _
      simp [faithful.back]

theorem faithful_optText : Faithful optText (optional? text?) where
  canonical value := by
    cases value with
    | none => exact .null
    | some value => exact .string value
  back value := by
    cases value with
    | none => rfl
    | some value => simp [optText, text, optional?, text?]

theorem recordFields?_record {names : List String} {fields : List (String × Json)}
    (distinct : names.Nodup) (keys : (fields.map Prod.fst).Sublist names) :
    (record fields).recordFields? names = some fields := by
  -- Every key is known and none is given twice, so all fields are kept.
  have known : fields.filter (fun field => field.1 ∈ names) = fields := by
    rw [List.filter_eq_self]
    intro field member
    exact decide_eq_true (keys.subset (List.mem_map_of_mem member))
  rw [record, recordFields?, mapM_map_eq_some id, List.map_id]
  · change (do guard ((fields.filter fun field => field.1 ∈ names).map Prod.fst).Nodup
               return fields.filter fun field => field.1 ∈ names) = some fields
    rw [known, guard, if_pos (distinct.sublist keys)]
    rfl
  · intro field _
    simp

@[simp] theorem defaulted?_eq {fields : List (String × Json)} {name : String}
    {decode : Json → Option α} {absent : α} :
    defaulted? fields name decode absent = (fields.lookup name).elim (some absent) decode := by
  rw [defaulted?]
  cases fields.lookup name <;> rfl

/-- A field that is left out when there is no value. -/
theorem Faithful.elim_optional {encode : α → Json} {decode : Json → Option α}
    (faithful : Faithful encode decode) (plain : decode .null = none) (value : Option α) :
    (value.map encode).elim (some none) (optional? decode) = some value := by
  cases value with
  | none => rfl
  | some value =>
      have back := faithful.back value
      rw [Option.map_some, Option.elim_some, optional?]
      · rw [back, Option.map_some]
      · intro null
        rw [null, plain] at back
        cases back

@[simp] theorem lookup_present (name key : String) (value : Option Json) :
    (present key value).lookup name = if name = key then value else none := by
  cases value with
  | none => simp [present]
  | some value => rw [present, lookup_cons_eq_ite, List.lookup_nil]

theorem keys_present_sublist (key : String) (value : Option Json) :
    ((present key value).map Prod.fst).Sublist [key] := by
  cases value <;> simp [present]

theorem canonical_present {encode : α → Json} {decode : Json → Option α}
    (faithful : Faithful encode decode) (key : String) (value : Option α) :
    ∀ field ∈ present key (value.map encode), Canonical field.2 := by
  cases value with
  | none => simp [present]
  | some value => simpa [present] using faithful.canonical value

end Json

open Json (Faithful Canonical canonical_record faithful_text faithful_word faithful_choice
  recordFields?_record
  required? defaulted?_eq lookup_present keys_present_sublist canonical_present)

theorem NodeKind.faithful : Faithful NodeKind.toJson NodeKind.ofJson? :=
  faithful_choice fun kind => by cases kind <;> decide

theorem EdgeKind.faithful : Faithful EdgeKind.toJson EdgeKind.ofJson? :=
  faithful_choice fun kind => by cases kind <;> decide

theorem Confidence.faithful : Faithful Confidence.toJson Confidence.ofJson? :=
  faithful_choice fun confidence => by cases confidence <;> decide

theorem SourceLocation.faithful : Faithful SourceLocation.toJson SourceLocation.ofJson? where
  canonical location := by
    refine canonical_record ?_
    simp [faithful_text.canonical, faithful_word.canonical]
  back location := by
    rw [toJson, ofJson?, recordFields?_record]
    · simp [required?, List.lookup_cons, faithful_text.back, faithful_word.back]
    · decide
    · exact List.Sublist.refl _

theorem SymbolNode.faithful : Faithful SymbolNode.toJson SymbolNode.ofJson? where
  canonical node := by
    refine canonical_record ?_
    simp only [List.forall_mem_append, List.forall_mem_cons, List.not_mem_nil, false_imp_iff,
      implies_true, and_true]
    exact ⟨⟨⟨⟨⟨faithful_text.canonical _, faithful_text.canonical _, NodeKind.faithful.canonical _,
      faithful_text.canonical _⟩, canonical_present faithful_text _ _⟩,
      canonical_present faithful_text _ _⟩,
      canonical_present SourceLocation.faithful _ _⟩, canonical_present faithful_text _ _⟩
  back node := by
    rw [toJson, ofJson?, recordFields?_record]
    · simp [required?, List.lookup_cons, List.lookup_append, faithful_text.back,
        NodeKind.faithful.back, faithful_text.elim_optional rfl,
        SourceLocation.faithful.elim_optional rfl]
    · decide
    · simp only [List.map_append]
      exact ((((List.Sublist.refl ["id", "name", "kind", "summary"]).append
        (keys_present_sublist "signature" _)).append
        (keys_present_sublist "docstring" _)).append (keys_present_sublist "location" _)).append
        (keys_present_sublist "module" _)

theorem GraphEdge.faithful : Faithful GraphEdge.toJson GraphEdge.ofJson? where
  canonical edge := by
    refine canonical_record ?_
    simp [faithful_text.canonical, EdgeKind.faithful.canonical, Confidence.faithful.canonical]
  back edge := by
    rw [toJson, ofJson?, recordFields?_record]
    · simp [required?, List.lookup_cons, faithful_text.back, EdgeKind.faithful.back,
        Confidence.faithful.back]
    · decide
    · exact List.Sublist.refl _

theorem Warning.faithful : Faithful Warning.toJson Warning.ofJson? where
  canonical warning := by
    refine canonical_record ?_
    simp only [List.forall_mem_append, List.forall_mem_cons, List.not_mem_nil, false_imp_iff,
      implies_true, and_true]
    exact ⟨⟨faithful_text.canonical _, faithful_text.canonical _, faithful_text.canonical _⟩,
      canonical_present faithful_word _ _⟩
  back warning := by
    rw [toJson, ofJson?, recordFields?_record]
    · simp [required?, List.lookup_cons, faithful_text.back,
        faithful_word.elim_optional rfl]
    · decide
    · rw [List.map_append]
      exact (List.Sublist.refl ["code", "message", "path"]).append (keys_present_sublist "line" _)

theorem TocEntry.faithful : Faithful TocEntry.toJson TocEntry.ofJson? where
  canonical entry := by
    refine canonical_record ?_
    simp [faithful_text.canonical]
  back entry := by
    rw [toJson, ofJson?, recordFields?_record]
    · simp [required?, List.lookup_cons, faithful_text.back]
    · decide
    · exact List.Sublist.refl _

end SourceAtlas
