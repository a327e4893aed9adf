import OutlineWiki.Outline.Build
import OutlineWiki.Proofs.Reference.Images
import OutlineWiki.Proofs.Text.Words

/-!
Targets of links in a document.

A link is answered by the first node in document order that has the identifier, name, title or
text it asks for. Headlines that stand for the section of footnotes never answer by an identifier
or a title. Only for an identifier that no headline has, the files of other documents are asked.
-/

namespace OutlineWiki

open Text

namespace Node

/-- The node is the first one of some nodes with a property. -/
def IsFirstWith (property : Node → Prop) (nodes : List Node) (node : Node) : Prop :=
  ∃ before after, nodes = before ++ node :: after ∧ property node ∧
    ∀ other ∈ before, ¬ property other

/-- An answer gives the first of some nodes with a property, and is missing exactly if no node has
the property. -/
structure FindsFirst (property : Node → Prop) (nodes : List Node) (answer : Option Node) :
    Prop where
  some_iff (node : Node) : answer = some node ↔ IsFirstWith property nodes node
  none_iff : answer = none ↔ ∀ node ∈ nodes, ¬ property node

/-- A headline, other than one for the footnotes, with the identifier that a link asks for. Links
of the type for custom identifiers ask for these, and all others for plain ones. -/
def IsIdentifiedBy (type : LinkType) (path : String) (node : Node) : Prop :=
  ∃ info title, node.kind = .headline info title ∧ info.footnoteSection = false ∧
    (if type.tag = "custom-id" then info.customId else info.id) = some path

/-- A headline, other than one for the footnotes, with the words of a given title. -/
def IsTitled (title : List Char) (node : Node) : Prop :=
  ∃ info shown, node.kind = .headline info shown ∧ info.footnoteSection = false ∧
    words (plainTexts shown) = words title

/-- A radio target with the text of a path, up to the case of letters and blanks around it. -/
def IsCalled (path : String) (node : Node) : Prop :=
  node.kind = .radioTarget ∧ lowercase (trim node.plainText) = lowercase (trim path.toList)

variable {nodes : List Node} {node : Node}

theorem numberedHeadline?_eq_some_iff {info : HeadlineInfo} :
    node.numberedHeadline? = some info ↔
      ∃ title, node.kind = .headline info title ∧ info.footnoteSection = false := by
  rw [numberedHeadline?]
  split
  · next other title hkind =>
      cases hsection : other.footnoteSection <;> simp [hkind] <;> grind
  · next hkind =>
      simp only [reduceCtorEq, false_iff]
      rintro ⟨title, h, _⟩
      exact hkind _ _ h

/-- A search whose test decides a property finds the first node with it. -/
theorem findsFirst_find? {property : Node → Prop} {test : Node → Bool}
    (h : ∀ node, test node = true ↔ property node) :
    FindsFirst property nodes (nodes.find? test) where
  some_iff node := by
    rw [List.find?_eq_some_iff_append, IsFirstWith, h]
    constructor
    · rintro ⟨hnode, before, after, rfl, hbefore⟩
      refine ⟨before, after, rfl, hnode, fun other ho hp => ?_⟩
      have hnot := hbefore other ho
      rw [(h other).mpr hp] at hnot
      cases hnot
    · rintro ⟨before, after, rfl, hnode, hbefore⟩
      refine ⟨hnode, before, after, rfl, fun other ho => ?_⟩
      rw [Bool.not_eq_true', Bool.eq_false_iff]
      exact fun htest => hbefore other ho ((h other).mp htest)
  none_iff := by
    rw [List.find?_eq_none]
    exact forall₂_congr fun node _ => not_congr (h node)

theorem identified_iff {type : LinkType} {path : String} :
    (node.numberedHeadline?.bind
        (if type.tag = "custom-id" then (·.customId) else (·.id)) == some path) = true ↔
      IsIdentifiedBy type path node := by
  rw [beq_iff_eq, Option.bind_eq_some_iff, IsIdentifiedBy]
  constructor
  · rintro ⟨info, hinfo, hpath⟩
    obtain ⟨title, hkind, hsection⟩ := numberedHeadline?_eq_some_iff.mp hinfo
    refine ⟨info, title, hkind, hsection, ?_⟩
    rw [← hpath]
    split <;> rfl
  · rintro ⟨info, title, hkind, hsection, hpath⟩
    refine ⟨info, numberedHeadline?_eq_some_iff.mpr ⟨title, hkind, hsection⟩, ?_⟩
    rw [← hpath]
    split <;> rfl

theorem titled_iff {title : List Char} :
    (node.numberedHeadline?.isSome && node.titleText == normalizeBlanks title) = true ↔
      IsTitled title node := by
  rw [Bool.and_eq_true_iff, beq_iff_eq, titleText, normalizeBlanks_eq_iff,
    Option.isSome_iff_exists, IsTitled]
  constructor
  · rintro ⟨⟨info, hinfo⟩, hwords⟩
    obtain ⟨shown, hkind, hsection⟩ := numberedHeadline?_eq_some_iff.mp hinfo
    rw [hkind] at hwords
    exact ⟨info, shown, hkind, hsection, hwords⟩
  · rintro ⟨info, shown, hkind, hsection, hwords⟩
    refine ⟨⟨info, numberedHeadline?_eq_some_iff.mpr ⟨shown, hkind, hsection⟩⟩, ?_⟩
    rw [hkind]
    exact hwords

theorem called_iff {path : String} :
    (node.isRadioTarget && radioForm node.plainText == radioForm path.toList) = true ↔
      IsCalled path node := by
  rw [Bool.and_eq_true_iff, beq_iff_eq, radioForm, radioForm, IsCalled, isRadioTarget]
  refine and_congr_left fun _ => ?_
  split
  · next hkind => simp [hkind]
  · next hkind => simpa using hkind

end Node

namespace Survey

open Node

/-- How the lookups of a survey answer a link, given the nodes of the document in order and the
files that hold identifiers of other documents. -/
structure AnswersFirst (survey : Survey) (nodes : List Node)
    (externalIds : List (String × String)) (link : Node) (type : LinkType) (path : String) :
    Prop where
  /-- A headline with the identifier comes before any file. -/
  headline (target : Node) : survey.crossReference link = some (.internal target) ↔
    IsFirstWith (IsIdentifiedBy type path) nodes target
  /-- A file is given only where no headline has the identifier. -/
  file (name : String) : survey.crossReference link = some (.external name) ↔
    (∀ node ∈ nodes, ¬ IsIdentifiedBy type path node) ∧ externalIds.lookup path = some name
  nowhere : survey.crossReference link = none ↔
    (∀ node ∈ nodes, ¬ IsIdentifiedBy type path node) ∧ ∀ name, (path, name) ∉ externalIds
  /-- After a star stands a title, and names do not count. -/
  starred (title : List Char) (h : path.toList = '*' :: title) :
    FindsFirst (IsTitled title) nodes (survey.fuzzyTarget link)
  /-- Without a star, a node with the name comes before any title. -/
  named (h : path.toList.head? ≠ some '*') (hname : ∃ node ∈ nodes, node.name = some path) :
    FindsFirst (fun node => node.name = some path) nodes (survey.fuzzyTarget link)
  /-- Without a star, a title counts only where no node has the name. -/
  titled (h : path.toList.head? ≠ some '*') (hname : ∀ node ∈ nodes, node.name ≠ some path) :
    FindsFirst (IsTitled path.toList) nodes (survey.fuzzyTarget link)
  radio : FindsFirst (IsCalled path) nodes (survey.radioTarget link)

variable {root link : Node} {options : Options} {externalIds : List (String × String)}
  {type : LinkType} {path : String}

theorem findsFirst_headlineWith? (root : Node) (options : Options)
    (externalIds : List (String × String)) (type : LinkType) (path : String) :
    FindsFirst (IsIdentifiedBy type path) root.walk
      ((ofTree root options externalIds).headlineWith?
        (if type.tag = "custom-id" then (·.customId) else (·.id)) path) :=
  findsFirst_find? fun _ => identified_iff

theorem findsFirst_headlineTitled? (title : List Char) :
    FindsFirst (IsTitled title) root.walk
      ((ofTree root options externalIds).headlineTitled? title) := by
  rw [headlineTitled?_eq]
  exact findsFirst_find? fun _ => titled_iff

theorem crossReference_eq (h : link.kind = .link type path) :
    (ofTree root options externalIds).crossReference link =
      match (ofTree root options externalIds).headlineWith?
        (if type.tag = "custom-id" then (·.customId) else (·.id)) path with
      | some node => some (.internal node)
      | none => (externalIds.lookup path).map .external := by
  rw [crossReference, h]
  rfl

theorem fuzzyTarget_starred {title : List Char} (h : link.kind = .link type path)
    (hpath : path.toList = '*' :: title) :
    (ofTree root options externalIds).fuzzyTarget link =
      (ofTree root options externalIds).headlineTitled? title := by
  rw [fuzzyTarget, linkPath?, h]
  dsimp only
  rw [hpath]
  rfl

theorem fuzzyTarget_plain (h : link.kind = .link type path)
    (hpath : path.toList.head? ≠ some '*') :
    (ofTree root options externalIds).fuzzyTarget link =
      (root.walk.find? fun node => node.name == some path).or
        ((ofTree root options externalIds).headlineTitled? path.toList) := by
  rw [fuzzyTarget, linkPath?, h]
  dsimp only
  split
  · next title htitle =>
      rw [htitle] at hpath
      exact absurd rfl hpath
  · rw [ofTree]
    dsimp only
    split
    · next found => rw [found, Option.some_or]
    · next found => rw [found, Option.none_or]

theorem lookup_eq_none_iff_notMem :
    externalIds.lookup path = none ↔ ∀ name, (path, name) ∉ externalIds := by
  rw [List.lookup_eq_none_iff]
  constructor
  · intro h name hmem
    simpa using h _ hmem
  · rintro h ⟨key, name⟩ hmem
    rw [bne_iff_ne]
    rintro rfl
    exact h name hmem

/-- Every lookup answers a link by the first node in document order that it asks for, and gives no
answer exactly when there is no such node and no entry for another file. -/
theorem lookups_answer_first (root : Node) (options : Options)
    (externalIds : List (String × String)) {link : Node} {type : LinkType} {path : String}
    (h : link.kind = .link type path) :
    AnswersFirst (ofTree root options externalIds) root.walk externalIds link type path := by
  have hheadline := findsFirst_headlineWith? root options externalIds type path
  have hname : FindsFirst (fun node => node.name = some path) root.walk
      (root.walk.find? fun node => node.name == some path) :=
    findsFirst_find? fun _ => beq_iff_eq
  constructor
  case headline =>
    intro target
    rw [← hheadline.some_iff, crossReference_eq h]
    split <;> simp [*]
  case file =>
    intro name
    rw [← hheadline.none_iff, crossReference_eq h]
    split <;> simp [*]
  case nowhere =>
    rw [← hheadline.none_iff, ← lookup_eq_none_iff_notMem, crossReference_eq h]
    split <;> simp [*]
  case starred =>
    intro title hpath
    rw [fuzzyTarget_starred h hpath]
    exact findsFirst_headlineTitled? title
  case named =>
    rintro hpath ⟨node, hnode, hcalled⟩
    rw [fuzzyTarget_plain h hpath]
    cases hfound : root.walk.find? fun node => node.name == some path with
    | none => exact absurd hcalled (hname.none_iff.mp hfound node hnode)
    | some found =>
        rw [Option.some_or, ← hfound]
        exact hname
  case titled =>
    intro hpath hnone
    rw [fuzzyTarget_plain h hpath, hname.none_iff.mpr hnone, Option.none_or]
    exact findsFirst_headlineTitled? path.toList
  case radio =>
    rw [radioTarget_eq, linkPath?, h]
    exact findsFirst_find? fun _ => called_iff

/-- The headline for the footnotes bears the identifier first, and another file is known for it too,
but the link leads to the first of the two other headlines that bear it. -/
theorem lookups_answer_first_twins :
    let notes := Node.ofKind
      (.headline { level := 1, customId := some "s", footnoteSection := true } []) []
    let twin := Node.ofKind (.headline { level := 1, customId := some "s" } []) []
    let root := Node.document [notes, twin, twin]
    let link := Node.link .customId "s" none
    let survey := ofTree root.prepare {} [("s", "other.org")]
    ∃ target ∈ root.prepare.walk, target.id = 2 ∧ link.kind = .link .customId "s" ∧
      survey.crossReference link = some (.internal target) := by
  intro notes twin root link survey
  have hanswers := lookups_answer_first root.prepare {} [("s", "other.org")]
    (show link.kind = .link .customId "s" from rfl)
  refine ⟨_, List.mem_of_getElem? (i := 2) rfl, rfl, rfl, (hanswers.headline _).mpr ?_⟩
  refine ⟨[_, _], [_], rfl, ⟨_, _, rfl, rfl, rfl⟩, fun other ho => ?_⟩
  rintro ⟨info, title, hkind, hsection, _⟩
  simp only [List.mem_cons, List.not_mem_nil, or_false] at ho
  obtain rfl | rfl := ho
  · cases hkind
  · cases hkind
    cases hsection

end Survey

end OutlineWiki
