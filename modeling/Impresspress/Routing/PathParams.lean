import Impresspress.Encoding.Percent
import Impresspress.Routing.EndpointMatch

/-!
# Path parameters

A page that links to a record writes the record's key into the row's template, percent-encoded. The
path is matched as it stands on the wire, and what the variables are bound to is decoded after that.

Source: `endpoint_match.rs` (`match_template`, `dispatch`) and `util.rs` (`url_path_encode`,
`url_path_decode`).

## Main definitions

* `Routing.PathTemplate`: a template of literals and variables, and its text.
* `Routing.PathTemplate.Splits`: what a path that matches looks like.
* `Routing.dispatchParams`: the row that serves a request, and what its handler reads.

## Main results

* `Routing.matchTemplate_iff_splits`: the paths that a template matches.
* `Routing.PathTemplate.splits_fill`: the path that is written from a template splits.
-/

namespace Routing

/-! ## Encoding -/

/-- `PATH_SEGMENT`: the unreserved characters are left untouched. -/
def pathSegment (b : UInt8) : Bool :=
  (48 ≤ b && b ≤ 57) || (65 ≤ b && b ≤ 90) || (97 ≤ b && b ≤ 122) ||
    b == 45 || b == 95 || b == 46 || b == 126

def urlPathEncode (s : String) : Text := Percent.encodeText pathSegment s

def urlPathDecode (s : Text) : String := Percent.decodeText s

theorem ascii_of_pathSegment : ∀ b, pathSegment b = true → b.toNat < 128 := by
  intro b hb
  simp only [pathSegment, Bool.or_eq_true, Bool.and_eq_true, decide_eq_true_eq, beq_iff_eq,
    UInt8.le_iff_toNat_le] at hb
  rcases hb with (((((⟨-, h⟩ | ⟨-, h⟩) | ⟨-, h⟩) | rfl) | rfl) | rfl) | rfl
  · exact Nat.lt_of_le_of_lt h (by decide)
  · exact Nat.lt_of_le_of_lt h (by decide)
  · exact Nat.lt_of_le_of_lt h (by decide)
  all_goals decide

theorem urlPathDecode_urlPathEncode (s : String) : urlPathDecode (urlPathEncode s) = s :=
  Percent.decodeText_encodeText rfl ascii_of_pathSegment s

theorem slash_notMem_urlPathEncode (s : String) : '/' ∉ urlPathEncode s :=
  Percent.slash_notMem_encodeText rfl ascii_of_pathSegment s

example : urlPathEncode "a/b c%2F" = "a%2Fb%20c%252F".toList := by decide

/-! ## Templates -/

/-- A segment that is compared as it is. -/
structure Literal where
  text : Text
  plain : '/' ∉ text
  notRest : restName text = none
  notVariable : variableName text = none

/-- The name of a variable. -/
structure VariableName where
  text : Text
  plain : '/' ∉ text
  notDotted : ¬ ['.', '.', '.'] <:+ text

inductive TemplateSegment where
  | literal (segment : Literal)
  | param (name : VariableName)

/-- The last variable of a template, which binds what is left of a path; with `folder`, up to a slash
that ends it. -/
structure RestVariable where
  name : Text
  plain : '/' ∉ name
  folder : Bool

structure PathTemplate where
  fixed : List TemplateSegment
  rest : Option RestVariable
  nonempty : fixed ≠ [] ∨ rest.isSome

/-- The text of `{name}` and of a literal. -/
def TemplateSegment.text : TemplateSegment → Text
  | .literal segment => segment.text
  | .param name => '{' :: name.text ++ ['}']

/-- The segments of `{name...}` or `{name...}/`. -/
def RestVariable.texts (rest : RestVariable) : List Text :=
  ('{' :: rest.name ++ ['.', '.', '.', '}']) :: if rest.folder then [[]] else []

/-- The segments of the text of a template. -/
def templateTexts (fixed : List TemplateSegment) (rest : Option RestVariable) : List Text :=
  fixed.map TemplateSegment.text ++ (rest.map RestVariable.texts).getD []

/-- A template as a row spells it. -/
def PathTemplate.text (t : PathTemplate) : Text :=
  ['/'].intercalate (templateTexts t.fixed t.rest)

/-- A segment with its variable replaced. -/
def TemplateSegment.fill (values : Text → Text) : TemplateSegment → Text
  | .literal segment => segment.text
  | .param name => values name.text

def RestVariable.fill (values : Text → Text) (rest : RestVariable) : List Text :=
  values rest.name :: if rest.folder then [[]] else []

/-- The segments of a template with its variables replaced. -/
def fillTexts (values : Text → Text) (fixed : List TemplateSegment) (rest : Option RestVariable) :
    List Text :=
  fixed.map (TemplateSegment.fill values) ++ (rest.map (RestVariable.fill values)).getD []

/-- The path that a page writes: the values, percent-encoded, for the variables of the template. -/
def PathTemplate.fill (t : PathTemplate) (values : Text → String) : Text :=
  ['/'].intercalate (fillTexts (fun name => urlPathEncode (values name)) t.fixed t.rest)

def TemplateSegment.name? : TemplateSegment → Option Text
  | .literal _ => none
  | .param name => some name.text

/-- The variables of a template, in order. -/
def templateNames (fixed : List TemplateSegment) (rest : Option RestVariable) : List Text :=
  fixed.filterMap TemplateSegment.name? ++ (rest.map RestVariable.name).toList

def PathTemplate.names (t : PathTemplate) : List Text := templateNames t.fixed t.rest

/-- The segments of a path are the literals of a template with one non-empty segment for each
variable, and a non-empty remainder for the last variable if it takes the rest. -/
inductive Splits : List TemplateSegment → Option RestVariable → List Text → List (Text × Text) → Prop
  | done : Splits [] none [] []
  | literal {segment fixed rest ps params} (h : Splits fixed rest ps params) :
    Splits (.literal segment :: fixed) rest (segment.text :: ps) params
  | param {name fixed rest p ps params} (hp : p ≠ []) (h : Splits fixed rest ps params) :
    Splits (.param name :: fixed) rest (p :: ps) ((name.text, p) :: params)
  | remainder {rest value ps} (hps : ps ≠ []) (hfolder : rest.folder = false) (hvalue : value ≠ [])
    (h : ['/'].intercalate ps = value) : Splits [] (some rest) ps [(rest.name, value)]
  | folder {rest value ps} (hps : ps ≠ []) (hfolder : rest.folder = true) (hvalue : value ≠ [])
    (h : ['/'].intercalate ps = value ++ ['/']) : Splits [] (some rest) ps [(rest.name, value)]

/-- The path splits into the literals and the variables of the template. -/
def PathTemplate.Splits (t : PathTemplate) (path : Text) (params : List (Text × Text)) : Prop :=
  Routing.Splits t.fixed t.rest (segments path) params

/-- `endpoint_match::dispatch`: the handler of the row that a request selects, and what is written
into the request's parameters. -/
def dispatchParams {H : Type} (table : List (EndpointRoute H)) (action : String) (path : Text) :
    Option (H × List (Text × String)) :=
  (dispatch table action path).map fun selected =>
    (selected.1, selected.2.map fun param => (param.1, urlPathDecode param.2))

/-! ## The shape of a segment -/

theorem dropSuffix?_append (l s : Text) : (l ++ s).dropSuffix? s = some l :=
  List.dropSuffix?_eq_some_iff.mpr ⟨s, rfl, beq_self_eq_true s⟩

theorem eq_of_dropSuffix? {l s rest : Text} (h : l.dropSuffix? s = some rest) : l = rest ++ s := by
  obtain ⟨s', hl, hs⟩ := List.dropSuffix?_eq_some_iff.mp h
  rw [hl, eq_of_beq hs]

theorem dropPrefix?_cons (c : Char) (l : Text) : (c :: l).dropPrefix? [c] = some l :=
  List.dropPrefix?_append_of_beq l (beq_self_eq_true [c])

theorem eq_of_dropPrefix? {l p rest : Text} (h : l.dropPrefix? p = some rest) : l = p ++ rest := by
  obtain ⟨p', hl, hp⟩ := List.dropPrefix?_eq_some_iff.mp h
  rw [hl, eq_of_beq hp]

theorem restName_rest (name : Text) : restName ('{' :: name ++ ['.', '.', '.', '}']) = some name := by
  rw [restName, dropSuffix?_append]
  exact dropPrefix?_cons '{' name

theorem variableName_variable (name : Text) : variableName ('{' :: name ++ ['}']) = some name := by
  rw [variableName, dropSuffix?_append]
  exact dropPrefix?_cons '{' name

/-- A segment `{name}` is no rest segment: its name does not end in dots. -/
theorem restName_variable (name : VariableName) : restName ('{' :: name.text ++ ['}']) = none := by
  rw [restName, Option.bind_eq_none_iff]
  intro rest hrest
  have hlist : '{' :: name.text ++ ['}'] = rest ++ ['.', '.', '.'] ++ ['}'] := by
    rw [eq_of_dropSuffix? hrest, List.append_assoc]
    rfl
  have hdots := List.append_cancel_right hlist
  cases hprefix : rest.dropPrefix? ['{'] with
  | none => rfl
  | some tail =>
    rw [eq_of_dropPrefix? hprefix, List.append_assoc] at hdots
    exact absurd ⟨tail, (List.cons.inj hdots).2.symm⟩ name.notDotted

/-! ## Matching -/

theorem boundRest_eq_some_iff {folder : Bool} {rest value : Text} :
    boundRest folder rest = some value ↔
      value ≠ [] ∧ rest = value ++ if folder then ['/'] else [] := by
  have hempty : (!value.isEmpty) = true ↔ value ≠ [] := by simp
  cases folder with
  | true =>
    rw [boundRest, Option.filter_eq_some_iff, hempty, and_comm]
    refine and_congr_right fun _ => ⟨eq_of_dropSuffix?, ?_⟩
    rintro rfl
    exact dropSuffix?_append value ['/']
  | false =>
    rw [boundRest, Option.filter_eq_some_iff, hempty, and_comm]
    refine and_congr_right fun _ => ?_
    rw [if_neg Bool.false_ne_true, if_neg Bool.false_ne_true, List.append_nil]
    exact ⟨Option.some.inj, congrArg some⟩

/-- The last variable against what is left of a path. -/
theorem matchSegments_rest (rest : RestVariable) (ps : List Text) (params : List (Text × Text)) :
    matchSegments rest.texts ps = some params ↔ Splits [] (some rest) ps params := by
  have hlast : (if rest.folder then [([] : Text)] else []) = [[]] ↔ rest.folder = true := by
    cases rest.folder <;> simp
  have htail : ¬ ((if rest.folder then [([] : Text)] else []) ≠ [] ∧
      (if rest.folder then [([] : Text)] else []) ≠ [[]]) := by
    cases rest.folder <;> simp
  have hmatch : matchSegments rest.texts ps = if ps.isEmpty then none else
      (boundRest rest.folder (['/'].intercalate ps)).map fun value => [(rest.name, value)] := by
    rw [RestVariable.texts, matchSegments.eq_def]
    simp only [restName_rest]
    rw [if_neg htail]
    simp only [hlast, Bool.decide_eq_true]
  rw [hmatch]
  constructor
  · intro h
    split at h
    · cases h
    · rename_i hps
      obtain ⟨value, hvalue, rfl⟩ := Option.map_eq_some_iff.mp h
      obtain ⟨hne, hrest⟩ := boundRest_eq_some_iff.mp hvalue
      rw [List.isEmpty_iff] at hps
      cases hfolder : rest.folder with
      | true =>
        rw [hfolder] at hrest
        exact .folder hps hfolder hne hrest
      | false =>
        rw [hfolder] at hrest
        exact .remainder hps hfolder hne (hrest.trans (List.append_nil value))
  · intro h
    cases h with
    | remainder hps hfolder hvalue h =>
      rw [if_neg (by simpa using hps), boundRest_eq_some_iff.mpr ⟨hvalue, ?_⟩]
      · rfl
      · rw [h, hfolder]
        exact (List.append_nil _).symm
    | folder hps hfolder hvalue h =>
      rw [if_neg (by simpa using hps), boundRest_eq_some_iff.mpr ⟨hvalue, ?_⟩]
      · rfl
      · rw [h, hfolder]
        rfl

theorem matchSegments_literal (segment : Literal) (ts : List Text) (p : Text) (ps : List Text) :
    matchSegments (segment.text :: ts) (p :: ps) =
      if segment.text = p then matchSegments ts ps else none := by
  rw [matchSegments, segment.notRest]
  dsimp only
  rw [segment.notVariable]

theorem matchSegments_variable (name : VariableName) (ts : List Text) (p : Text) (ps : List Text) :
    matchSegments (('{' :: name.text ++ ['}']) :: ts) (p :: ps) =
      if p.isEmpty then none
      else (matchSegments ts ps).map fun params => (name.text, p) :: params := by
  rw [matchSegments, restName_variable]
  dsimp only
  rw [variableName_variable]

theorem restName_text (segment : TemplateSegment) : restName segment.text = none := by
  cases segment with
  | literal segment => exact segment.notRest
  | param name => exact restName_variable name

theorem matchSegments_nil_right (segment : TemplateSegment) (ts : List Text) :
    matchSegments (segment.text :: ts) [] = none := by
  rw [matchSegments, restName_text]

/-- What matches, segment for segment. -/
theorem matchSegments_iff_splits (fixed : List TemplateSegment) (rest : Option RestVariable)
    (ps : List Text) (params : List (Text × Text)) :
    matchSegments (templateTexts fixed rest) ps = some params ↔ Splits fixed rest ps params := by
  induction fixed generalizing ps params with
  | nil =>
    cases rest with
    | none =>
      cases ps with
      | nil =>
        refine ⟨fun h => ?_, fun h => ?_⟩
        · cases h
          exact .done
        · cases h
          rfl
      | cons p ps => exact ⟨nofun, nofun⟩
    | some rest => exact matchSegments_rest rest ps params
  | cons segment fixed ih =>
    change matchSegments (segment.text :: templateTexts fixed rest) ps = some params ↔ _
    cases ps with
    | nil =>
      rw [matchSegments_nil_right]
      exact ⟨nofun, fun h => by cases segment <;> cases h⟩
    | cons p ps =>
      cases segment with
      | literal segment =>
        rw [TemplateSegment.text, matchSegments_literal]
        constructor
        · intro h
          split at h
          · rename_i heq
            exact heq ▸ .literal ((ih ps params).mp h)
          · cases h
        · rintro ⟨⟩
          rename_i h
          rw [if_pos rfl]
          exact (ih ps params).mpr h
      | param name =>
        rw [TemplateSegment.text, matchSegments_variable]
        constructor
        · intro h
          split at h
          · cases h
          · rename_i hp
            obtain ⟨params, hparams, rfl⟩ := Option.map_eq_some_iff.mp h
            exact .param (by simpa using hp) ((ih ps params).mp hparams)
        · rintro ⟨⟩
          rename_i params hp h
          rw [if_neg (by simpa using hp), (ih ps params).mpr h]
          rfl

/-! ## The segments of a text -/

theorem segments_intercalate {texts : List Text} (hne : texts ≠ [])
    (hplain : ∀ text ∈ texts, '/' ∉ text) : segments (['/'].intercalate texts) = texts :=
  List.splitOn_intercalate '/' hplain hne

theorem TemplateSegment.plain (segment : TemplateSegment) : '/' ∉ segment.text := by
  cases segment with
  | literal segment => exact segment.plain
  | param name =>
    have hname := name.plain
    simpa [TemplateSegment.text] using hname

theorem RestVariable.plain_texts (rest : RestVariable) : ∀ text ∈ rest.texts, '/' ∉ text := by
  have hname := rest.plain
  rw [RestVariable.texts, List.forall_mem_cons]
  refine ⟨by simpa using hname, ?_⟩
  split <;> simp

theorem templateTexts_ne_nil {fixed : List TemplateSegment} {rest : Option RestVariable}
    (h : fixed ≠ [] ∨ rest.isSome) : templateTexts fixed rest ≠ [] := by
  rw [templateTexts, Ne, List.append_eq_nil_iff, List.map_eq_nil_iff]
  rintro ⟨hfixed, hrest⟩
  rcases h with h | h
  · exact h hfixed
  · obtain ⟨last, rfl⟩ := Option.isSome_iff_exists.mp h
    cases hrest

theorem PathTemplate.segments_text (t : PathTemplate) :
    segments t.text = templateTexts t.fixed t.rest := by
  refine segments_intercalate (templateTexts_ne_nil t.nonempty) fun text htext => ?_
  rcases List.mem_append.mp htext with hfixed | hrest
  · obtain ⟨segment, -, rfl⟩ := List.mem_map.mp hfixed
    exact segment.plain
  · cases hcase : t.rest with
    | none =>
      rw [hcase] at hrest
      cases hrest
    | some rest =>
      rw [hcase] at hrest
      exact rest.plain_texts text hrest

/-- A template matches the paths that split into its literals and variables, and no others. -/
theorem matchTemplate_iff_splits (t : PathTemplate) (path : Text) (params : List (Text × Text)) :
    matchTemplate t.text path = some params ↔ t.Splits path params := by
  rw [matchTemplate, t.segments_text]
  exact matchSegments_iff_splits t.fixed t.rest (segments path) params

/-! ## The round trip -/

/-- What is written into a path: a string that is not empty. -/
abbrev PathValue := { value : String // value ≠ "" }

theorem urlPathEncode_ne_nil (value : PathValue) : urlPathEncode value ≠ [] :=
  Percent.encodeText_ne_nil value.property

section Filling

variable (values : Text → PathValue)

theorem splits_rest (rest : RestVariable) :
    Splits [] (some rest) (rest.fill fun name => urlPathEncode (values name))
      [(rest.name, urlPathEncode (values rest.name))] := by
  have hvalue := urlPathEncode_ne_nil (values rest.name)
  cases hfolder : rest.folder with
  | true => exact .folder (List.cons_ne_nil _ _) hfolder hvalue (by simp [RestVariable.fill, hfolder])
  | false =>
    exact .remainder (List.cons_ne_nil _ _) hfolder hvalue (by simp [RestVariable.fill, hfolder])

/-- A template whose variables were replaced splits, and each variable is bound to what was
written. -/
theorem splits_fillTexts (fixed : List TemplateSegment) (rest : Option RestVariable) :
    Splits fixed rest (fillTexts (fun name => urlPathEncode (values name)) fixed rest)
      ((templateNames fixed rest).map fun name => (name, urlPathEncode (values name))) := by
  induction fixed with
  | nil =>
    cases rest with
    | none => exact .done
    | some rest => exact splits_rest values rest
  | cons segment fixed ih =>
    cases segment with
    | literal segment => exact .literal ih
    | param name => exact .param (urlPathEncode_ne_nil (values name.text)) ih

theorem plain_fillTexts (fixed : List TemplateSegment) (rest : Option RestVariable) :
    ∀ text ∈ fillTexts (fun name => urlPathEncode (values name)) fixed rest, '/' ∉ text := by
  intro text htext
  rcases List.mem_append.mp htext with hfixed | hrest
  · obtain ⟨segment, -, rfl⟩ := List.mem_map.mp hfixed
    cases segment with
    | literal segment => exact segment.plain
    | param name => exact slash_notMem_urlPathEncode (values name.text)
  · cases rest with
    | none => cases hrest
    | some rest =>
      rcases List.mem_cons.mp hrest with rfl | hlast
      · exact slash_notMem_urlPathEncode (values rest.name)
      · split at hlast
        · rw [List.mem_singleton.mp hlast]
          exact List.not_mem_nil
        · cases hlast

theorem fillTexts_ne_nil {fixed : List TemplateSegment} {rest : Option RestVariable}
    (h : fixed ≠ [] ∨ rest.isSome) (texts : Text → Text) : fillTexts texts fixed rest ≠ [] := by
  rw [fillTexts, Ne, List.append_eq_nil_iff, List.map_eq_nil_iff]
  rintro ⟨hfixed, hrest⟩
  rcases h with h | h
  · exact h hfixed
  · obtain ⟨last, rfl⟩ := Option.isSome_iff_exists.mp h
    cases hrest

/-- The encoded path splits: no value changes how many segments it has. -/
theorem PathTemplate.splits_fill (t : PathTemplate) :
    t.Splits (t.fill fun name => values name)
      (t.names.map fun name => (name, urlPathEncode (values name))) := by
  rw [PathTemplate.Splits, PathTemplate.fill, segments_intercalate
    (fillTexts_ne_nil t.nonempty _) (plain_fillTexts values t.fixed t.rest)]
  exact splits_fillTexts values t.fixed t.rest

example : dispatchParams [⟨.get, "/b/{id}/{key...}/".toList, 7, .anyone, .empty⟩] "retrieve"
    "/b/50%25/x%2Fy/z/".toList = some (7, [("id".toList, "50%"), ("key".toList, "x/y/z")]) := by
  decide +kernel

theorem dispatch_of_matchTemplate {H : Type} (row : EndpointRoute H) {path : Text}
    {params : List (Text × Text)} (h : matchTemplate row.template path = some params) :
    dispatch [row] (actionForMethod row.method) path = some (row.handler, params) := by
  have hrow : matchingRow [row] (actionForMethod row.method) path = some (row, params) := by
    rw [matchingRow, List.findSome?_cons, if_neg (not_not_intro rfl), h]
    rfl
  rw [dispatch, selectedRow, candidates, List.findSome?_cons, hrow]
  rfl

end Filling

/-- On a table of one row, the path that was written from the row's template selects the row, and its
handler reads every value as it was before it was encoded; a path matches the template exactly when
it splits into its literals and variables. -/
theorem path_params_round_trip {H : Type} (row : EndpointRoute H) (t : PathTemplate)
    (values : Text → PathValue) :
    dispatchParams [{ row with template := t.text }] (actionForMethod row.method)
        (t.fill fun name => values name) =
      some (row.handler, t.names.map fun name => (name, (values name).val)) ∧
    ∀ path params, matchTemplate t.text path = some params ↔ t.Splits path params := by
  refine ⟨?_, matchTemplate_iff_splits t⟩
  have hmatch := (matchTemplate_iff_splits t _ _).mpr (t.splits_fill values)
  have hdispatch := dispatch_of_matchTemplate { row with template := t.text } hmatch
  rw [dispatchParams, hdispatch, Option.map_some, List.map_map]
  congr 3
  funext name
  exact congrArg (Prod.mk name) (urlPathDecode_urlPathEncode (values name))

end Routing
