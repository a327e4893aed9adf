import Mathlib.Data.List.Forall2
import OutlineWiki.Proofs.Outline.Copies
import OutlineWiki.Proofs.Rendering.Stability

/-!
Corresponding renderings in two contexts.

Two trees may differ in numbers and labels, or in nodes that leave no markup, and still be
rendered alike. A correspondence says which nodes of the two trees stand for each other. If
corresponding nodes have the same attributes, corresponding parts and the same surroundings
as far as markup depends on them, they have the same markup. Headlines may say something else
beside their titles if the options leave nothing of the difference in the headings. The
registries of footnotes then hold corresponding references all the time.

A correspondence is given for each depth of rendering. What has no markup still takes a step
to be rendered, so lists with such nodes only correspond as long as there is a step left.
-/

namespace OutlineWiki

namespace Kind

variable {α : Type}

/-- Kinds that neither hold nodes nor belong to footnotes. -/
def isPlain : Kind α → Bool
  | headline _ _ | listItem _ _ | footnoteReference _ | footnoteDefinition _ => false
  | _ => true

/-- The kinds have the same attributes, apart from labels of footnotes and as far as headlines
are the same, and hold related nodes. -/
inductive Like (same : HeadlineInfo → HeadlineInfo → Prop) (R : Node → Node → Prop) :
    Kind Node → Kind Node → Prop where
  | headline {info twin : HeadlineInfo} {title others : List Node} (alike : same info twin)
      (h : List.Forall₂ R title others) : Like same R (.headline info title) (.headline twin others)
  | listItem {checkbox : Checkbox} {tag other : Option (List Node)}
      (h : Option.Rel (List.Forall₂ R) tag other) :
      Like same R (.listItem checkbox tag) (.listItem checkbox other)
  | footnoteReference {label other : Option String} :
      Like same R (.footnoteReference label) (.footnoteReference other)
  | footnoteDefinition {label other : String} :
      Like same R (.footnoteDefinition label) (.footnoteDefinition other)
  | plain {kind : Kind Node} (h : kind.isPlain = true) : Like same R kind kind

end Kind

/-- The options without the decorations of headings, which are of no use elsewhere. -/
def Options.undecorated (options : Options) : Options :=
  { options with withTodoKeywords := false, withTags := false, withPriority := false }

/-- Headlines with one title are laid out alike, each with its options. -/
def Options.LayOutAlike (options others : Options) (info twin : HeadlineInfo) : Prop :=
  info.footnoteSection = twin.footnoteSection ∧
    Markup.headlineMarkup options info = Markup.headlineMarkup others twin

theorem Options.layOutAlike_self (options : Options) (info : HeadlineInfo) :
    options.LayOutAlike options info info :=
  ⟨rfl, rfl⟩

/-- Two lists of nodes are related one by one, apart from nodes that may be skipped. -/
inductive Aligned (skip : Node → Prop) (R : Node → Node → Prop) : List Node → List Node → Prop where
  | nil : Aligned skip R [] []
  | both {node other : Node} {nodes others : List Node} (h : R node other)
      (rest : Aligned skip R nodes others) : Aligned skip R (node :: nodes) (other :: others)
  | first {node : Node} {nodes others : List Node} (h : skip node)
      (rest : Aligned skip R nodes others) : Aligned skip R (node :: nodes) others
  | second {other : Node} {nodes others : List Node} (h : skip other)
      (rest : Aligned skip R nodes others) : Aligned skip R nodes (other :: others)

theorem Aligned.of_forall₂ {skip : Node → Prop} {R : Node → Node → Prop} {nodes others : List Node}
    (h : List.Forall₂ R nodes others) : Aligned skip R nodes others := by
  induction h with
  | nil => exact .nil
  | cons hnode _ ih => exact .both hnode ih

theorem Aligned.forall₂ {skip : Node → Prop} {R : Node → Node → Prop} {nodes others : List Node}
    (h : Aligned skip R nodes others) (hskip : ∀ node, ¬ skip node) :
    List.Forall₂ R nodes others := by
  induction h with
  | nil => exact .nil
  | both hnode _ ih => exact .cons hnode ih
  | first hnode _ _ => exact absurd hnode (hskip _)
  | second hother _ _ => exact absurd hother (hskip _)

namespace Rendering

variable {α β γ δ : Type} {S : Footnotes → Footnotes → Prop}

/-- From related registries both renderings end with related results and registries, or
neither of them ends. -/
def Agrees (S : Footnotes → Footnotes → Prop) (Q : α → β → Prop) (rendering : Rendering α)
    (other : Rendering β) : Prop :=
  ∀ notes others, S notes others →
    Option.Rel (fun result more => Q result.1 more.1 ∧ S result.2 more.2)
      (rendering.run notes) (other.run others)

theorem agrees_pure {Q : α → β → Prop} {result : α} {other : β} (h : Q result other) :
    Agrees S Q (pure result) (pure other) :=
  fun _ _ hs => .some ⟨h, hs⟩

theorem agrees_bind {Q : α → β → Prop} {P : γ → δ → Prop} {rendering : Rendering α}
    {other : Rendering β} {next : α → Rendering γ} {more : β → Rendering δ}
    (h : Agrees S Q rendering other)
    (hnext : ∀ result value, Q result value → Agrees S P (next result) (more value)) :
    Agrees S P (rendering >>= next) (other >>= more) := by
  intro notes others hs
  have hfirst := h notes others hs
  rw [run_bind, run_bind]
  cases hrun : rendering.run notes with
  | none =>
      rw [hrun] at hfirst
      cases hother : other.run others with
      | none => exact .none
      | some _ => rw [hother] at hfirst; cases hfirst
  | some result =>
      rw [hrun] at hfirst
      cases hother : other.run others with
      | none => rw [hother] at hfirst; cases hfirst
      | some value =>
          rw [hother] at hfirst
          cases hfirst with
          | some hboth => exact hnext _ _ hboth.1 _ _ hboth.2

/-- A step that both renderings make in the same way leads on with one result. -/
theorem agrees_bind_eq {P : γ → δ → Prop} {rendering other : Rendering α}
    {next : α → Rendering γ} {more : α → Rendering δ} (h : Agrees S Eq rendering other)
    (hnext : ∀ result, Agrees S P (next result) (more result)) :
    Agrees S P (rendering >>= next) (other >>= more) :=
  agrees_bind h fun result _ heq => heq ▸ hnext result

end Rendering

open Rendering Markup

/-- Frames may hold more nodes without markup, as long as there is depth left to render them. -/
def Node.MaySkip (node : Node) (depth : Nat) (child : Node) : Prop :=
  node.kind.isFrame = true ∧ 0 < depth ∧ child.kind.isSilent = true

/-- The nodes are related at every depth of rendering. -/
def Steady (R : Nat → Node → Node → Prop) (node other : Node) : Prop :=
  ∀ depth, R depth node other

/-- Related nodes have the same attributes, related parts and like surroundings. -/
structure Corresponds (context other : Context) (R : Nat → Node → Node → Prop) : Prop where
  options : context.options.undecorated = other.options.undecorated
  localize : context.host.localize = other.host.localize
  codeReference : context.host.codeReference = other.host.codeReference
  showsImage : context.host.showsImage = other.host.showsImage
  kind : ∀ {depth node more}, R depth node more →
    node.kind.Like (context.options.LayOutAlike other.options) (Steady R) more.kind
  children : ∀ {depth node more}, R (depth + 1) node more →
    Aligned (node.MaySkip depth) (R depth) node.children more.children
  postBlank : ∀ {depth node more}, R depth node more → node.postBlank = more.postBlank
  item : ∀ {depth node more checkbox tag}, R depth node more →
    node.kind = .listItem checkbox tag →
      listTypeAround context.index node = listTypeAround other.index more
  cell : ∀ {depth node more}, R depth node more → node.kind = .tableCell →
    isMarkingCell context node = isMarkingCell other more
  drawing : ∀ {depth node more value}, R depth node more → node.kind = .table .drawing value →
    context.host.drawing node = other.host.drawing more
  caption : ∀ {depth node more value}, R depth node more → node.kind = .table .rows value →
    Option.Rel (List.Forall₂ (Steady R)) (context.host.caption node) (other.host.caption more)
  cross : ∀ {depth node more type path}, R depth node more → node.kind = .link type path →
    crossReference context node = crossReference other more
  fuzzy : ∀ {depth node more type path}, R depth node more → node.kind = .link type path →
    fuzzyLink context node = fuzzyLink other more
  radio : ∀ {depth node more type path}, R depth node more → node.kind = .link type path →
    Option.Rel (fun target goal => List.Forall₂ (Steady R) target.children goal.children)
      (context.host.radioTarget node) (other.host.radioTarget more)
  image : ∀ {depth node more type path}, R depth node more → node.kind = .link type path →
    Option.Rel (List.Forall₂ (Steady R))
      ((context.index.parentBlock? node).bind context.host.caption)
      ((other.index.parentBlock? more).bind other.host.caption)
  /-- References do not render anything else, so they are related at every depth. -/
  reference : ∀ {depth node more label}, R depth node more →
    node.kind = .footnoteReference label → Steady R node more
  follows : ∀ {depth node more label}, R depth node more →
    node.kind = .footnoteReference label →
      ((context.index.previous? node).any fun before => before.kind.isFootnoteReference) =
        (other.index.previous? more).any fun before => before.kind.isFootnoteReference
  /-- References share a footnote in one context when they share one in the other. -/
  footnote : ∀ {node more reference twin}, Steady R node more → Steady R reference twin →
    (node.footnote? = reference.footnote? ↔ more.footnote? = twin.footnote?)
  text : ∀ {node more}, Steady R node more →
    Option.Rel (List.Forall₂ (Steady R))
      (context.index.footnoteText? node) (other.index.footnoteText? more)

namespace Markup

section Lists

variable {S : Footnotes → Footnotes → Prop} {R : Node → Node → Prop} {skip : Node → Prop}
  {render twin : Node → Rendering (List Char)} {nodes others : List Node}

theorem renderAll_silent {node : Node} (h : render node = pure []) (nodes : List Node) :
    renderAll render (node :: nodes) = renderAll render nodes := by
  rw [renderAll, h, pure_bind]
  exact bind_pure _

/-- The parts of two items lead to the same lines, whatever stands before them. -/
def SameLines (parts others : List (Bool × List Char)) : Prop :=
  ∀ bullet mark, itemLines bullet mark parts = itemLines bullet mark others

theorem sameLines_cons {parts others : List (Bool × List Char)} (h : SameLines parts others)
    (part : Bool × List Char) : SameLines (part :: parts) (part :: others) := by
  obtain ⟨isList, markup⟩ := part
  intro bullet mark
  cases isList <;> rw [itemLines, itemLines, h]

/-- A part without markup that is no list leaves no line. -/
theorem sameLines_blank (parts : List (Bool × List Char)) :
    SameLines ((false, []) :: parts) parts := by
  intro bullet mark
  rw [itemLines, show shownLines [] = [] by decide]
  rfl

theorem isPlainList_of_isSilent {kind : Kind Node} (h : kind.isSilent = true) :
    kind.isPlainList = false := by
  cases kind <;> first | rfl | cases h

variable (h : ∀ node other, R node other → Agrees S Eq (render node) (twin other))
include h

section Aligned

variable (hskip : ∀ node, skip node → render node = pure [] ∧ twin node = pure [])
include hskip

theorem renderAll_aligned (hn : Aligned skip R nodes others) :
    Agrees S Eq (renderAll render nodes) (renderAll twin others) := by
  induction hn with
  | nil => exact agrees_pure rfl
  | both hnode _ ih =>
      refine agrees_bind_eq (h _ _ hnode) fun first => agrees_bind_eq ih fun rest => ?_
      exact agrees_pure rfl
  | first hnode _ ih => rwa [renderAll_silent (hskip _ hnode).1]
  | second hother _ ih => rwa [renderAll_silent (hskip _ hother).2]

theorem renderParts_aligned
    (hkind : ∀ node other, R node other → node.kind.isPlainList = other.kind.isPlainList)
    (hsilent : ∀ node, skip node → node.kind.isSilent = true) (hn : Aligned skip R nodes others) :
    Agrees S SameLines (renderParts render nodes) (renderParts twin others) := by
  induction hn with
  | nil => exact agrees_pure fun _ _ => rfl
  | both hnode _ ih =>
      refine agrees_bind_eq (h _ _ hnode) fun first => agrees_bind ih fun parts more hsame => ?_
      rw [hkind _ _ hnode]
      exact agrees_pure (sameLines_cons hsame _)
  | @first node nodes others hnode _ ih =>
      rw [renderParts, (hskip node hnode).1, pure_bind, isPlainList_of_isSilent (hsilent _ hnode),
        ← bind_pure (renderParts twin others)]
      refine agrees_bind ih fun parts more hsame => agrees_pure fun bullet mark => ?_
      rw [sameLines_blank, hsame]
  | @second other nodes others hother _ ih =>
      rw [renderParts, (hskip other hother).2, pure_bind,
        isPlainList_of_isSilent (hsilent _ hother), ← bind_pure (renderParts render nodes)]
      refine agrees_bind ih fun parts more hsame => agrees_pure fun bullet mark => ?_
      rw [sameLines_blank, hsame]

end Aligned

theorem renderAll_agrees (hn : List.Forall₂ R nodes others) :
    Agrees S Eq (renderAll render nodes) (renderAll twin others) := by
  have haligned : Aligned (fun _ => False) R nodes others := .of_forall₂ hn
  exact renderAll_aligned h (fun _ hs => hs.elim) haligned

theorem renderCaption_agrees {caption other : Option (List Node)}
    (hc : Option.Rel (List.Forall₂ R) caption other) :
    Agrees S Eq (renderCaption render caption) (renderCaption twin other) := by
  cases hc with
  | none => exact agrees_pure rfl
  | some hn => exact agrees_bind_eq (renderAll_agrees h hn) fun text => agrees_pure rfl

end Lists

theorem renderNode_silent (context : Context) (depth : Nat) {node : Node}
    (h : node.kind.isSilent = true) : renderNode context (depth + 1) node = pure [] := by
  obtain ⟨kind, children, postBlank, name, caption, id⟩ := node
  cases kind <;> first | rfl | cases h

end Markup

namespace Footnotes

variable {R : Node → Node → Prop}

/-- The registries hold related references in the same order. -/
def Twin (R : Node → Node → Prop) (notes others : Footnotes) : Prop :=
  List.Forall₂ R notes.references others.references

theorem twin_empty (R : Node → Node → Prop) : Twin R {} {} :=
  .nil

theorem Twin.referenceAt? {notes others : Footnotes} (h : Twin R notes others) (place : Nat) :
    Option.Rel R (notes.referenceAt? place) (others.referenceAt? place) := by
  obtain ⟨references⟩ := notes
  obtain ⟨more⟩ := others
  change List.Forall₂ R references more at h
  change Option.Rel R references[place]? more[place]?
  induction h generalizing place with
  | nil => exact .none
  | cons hr _ ih =>
      cases place with
      | zero => exact .some hr
      | succ place => exact ih place

theorem Twin.get? {notes others : Footnotes} (h : Twin R notes others)
    {footnote twin : Footnote}
    (hsame : ∀ reference other, R reference other →
      (reference.footnote? = some footnote ↔ other.footnote? = some twin)) :
    notes.get? footnote = others.get? twin := by
  have hindex : notes.references.findIdx? (fun reference => reference.footnote? == some footnote) =
      others.references.findIdx? fun reference => reference.footnote? == some twin := by
    obtain ⟨references⟩ := notes
    obtain ⟨more⟩ := others
    change List.Forall₂ R references more at h
    induction h with
    | nil => rfl
    | cons hr _ ih =>
        have hbeq := Bool.eq_iff_iff.mpr
          ((beq_iff_eq.trans (hsame _ _ hr)).trans beq_iff_eq.symm)
        rw [List.findIdx?_cons, List.findIdx?_cons, hbeq, ih]
  rw [Footnotes.get?, Footnotes.get?, hindex]

/-- Meeting related references gives the same number and related registries. -/
theorem Twin.number {notes others : Footnotes} (h : Twin R notes others) {node more : Node}
    (hnode : R node more) {footnote twin : Footnote} (hf : node.footnote? = some footnote)
    (ht : more.footnote? = some twin)
    (hsame : ∀ reference other, R reference other →
      (reference.footnote? = some footnote ↔ other.footnote? = some twin)) :
    (notes.number node).1 = (others.number more).1 ∧
      Twin R (notes.meet node) (others.meet more) := by
  have hget := h.get? hsame
  rw [meet, meet]
  cases hn : notes.get? footnote with
  | some number =>
      rw [number_of_get? hf hn, number_of_get? ht (hget ▸ hn)]
      exact ⟨rfl, h⟩
  | none =>
      rw [number_of_new hf hn, number_of_new ht (hget ▸ hn)]
      exact ⟨congrArg (fun size => some (size + 1)) h.length_eq,
        List.rel_append h (.cons hnode .nil)⟩

end Footnotes

theorem Node.exists_footnote {node : Node} {label : Option String}
    (h : node.kind = .footnoteReference label) : ∃ footnote, node.footnote? = some footnote := by
  cases label <;> exact ⟨_, by rw [footnote?, h]⟩

namespace Corresponds

variable {context other : Context} {R : Nat → Node → Node → Prop}
  (h : Corresponds context other R)
include h

/-- What does not regard the decorations of headings is the same in both contexts. -/
theorem setting_eq {α : Type} (f : Options → α)
    (hf : ∀ options : Options, f options.undecorated = f options) :
    f context.options = f other.options := by
  rw [← hf, h.options, hf]

theorem startsWithHash_eq {depth : Nat} {nodes others : List Node}
    (hn : List.Forall₂ (R depth) nodes others) :
    startsWithHash nodes = startsWithHash others := by
  cases hn with
  | nil => rfl
  | @cons node more nodes others hnode _ =>
      have hlike := h.kind hnode
      simp only [startsWithHash]
      generalize node.kind = kind, more.kind = twin at hlike
      cases hlike <;> rfl

theorem footnoteReference_agrees {depth : Nat} {node more : Node} (hnode : R depth node more)
    {label : Option String} (hkind : node.kind = .footnoteReference label) :
    Agrees (Footnotes.Twin (Steady R)) Eq (footnoteReference context node)
      (footnoteReference other more) := by
  obtain ⟨twin, hmore⟩ : ∃ twin, more.kind = .footnoteReference twin := by
    have hlike := h.kind hnode
    rw [hkind] at hlike
    generalize more.kind = kind at hlike
    cases hlike with
    | footnoteReference => exact ⟨_, rfl⟩
    | plain hplain => cases hplain
  obtain ⟨footnote, hf⟩ := Node.exists_footnote hkind
  obtain ⟨key, hk⟩ := Node.exists_footnote hmore
  have hsteady := h.reference hnode hkind
  have hmarkup : referenceMarkup context node = referenceMarkup other more := by
    funext number
    rw [referenceMarkup, referenceMarkup, h.follows hnode hkind,
      h.setting_eq (·.footnoteSeparator) fun _ => rfl,
      h.setting_eq (·.footnoteReferenceFormat) fun _ => rfl]
  intro notes others hs
  obtain ⟨hnumber, hmeet⟩ := hs.number hsteady hf hk fun reference other hr => by
    rw [← hf, ← hk]
    exact h.footnote hr hsteady
  rw [run_footnoteReference, run_footnoteReference, hnumber, hmarkup]
  exact .some ⟨rfl, hmeet⟩

/-- Links show the same when their contents do. -/
theorem link_agrees {render twin : Node → Rendering (List Char)} {S : Footnotes → Footnotes → Prop}
    (hrender : ∀ shown seen, Steady R shown seen → Agrees S Eq (render shown) (twin seen))
    {depth : Nat} {node more : Node} (hnode : R depth node more) {type : LinkType} {path : String}
    (hkind : node.kind = .link type path) (contents : List Char) :
    Agrees S Eq (link context render node type path contents)
      (link other twin more type path contents) := by
  have hcaption := renderCaption_agrees hrender (h.image hnode hkind)
  have hother : Agrees S Eq
      (if isImage context type path (description contents) then
        Markup.image context render node type path.toList
      else
        pure (externalLink context.options type path.toList (description contents)))
      (if isImage other type path (description contents) then
        Markup.image other twin more type path.toList
      else
        pure (externalLink other.options type path.toList (description contents))) := by
    have himage : isImage context type path = isImage other type path := by
      funext description
      have hextensions := h.setting_eq (·.inlineImageExtensions) fun _ => rfl
      cases type <;> simp only [isImage, hextensions, h.showsImage]
    rw [himage, h.setting_eq externalLink fun _ => rfl]
    split
    · exact agrees_bind_eq hcaption fun caption => agrees_pure rfl
    · exact agrees_pure rfl
  cases type with
  | customId | id => exact agrees_pure (congrFun (h.cross hnode hkind) _)
  | coderef =>
      simp only [link, Markup.codeReference, h.codeReference]
      exact agrees_pure rfl
  | fuzzy => exact agrees_pure (congrFun (h.fuzzy hnode hkind) _)
  | radio =>
      have htarget := h.radio hnode hkind
      simp only [link, radioLink]
      generalize context.host.radioTarget node = target, other.host.radioTarget more = goal
        at htarget
      cases htarget with
      | none => exact agrees_pure rfl
      | some hn => exact renderAll_agrees hrender hn
  | _ => exact hother

section Step

variable {render twin : Node → Rendering (List Char)} {S : Footnotes → Footnotes → Prop}
  {depth : Nat} {node more : Node}
  (hrender : ∀ shown seen, R depth shown seen → Agrees S Eq (render shown) (twin seen))
  (hskip : ∀ child, node.MaySkip depth child → render child = pure [] ∧ twin child = pure [])
  (hnode : R (depth + 1) node more)
include hrender hskip hnode

theorem listItem_agrees {checkbox : Checkbox} {tag mark : Option (List Node)}
    (hkind : node.kind = .listItem checkbox tag)
    (htag : Option.Rel (List.Forall₂ (Steady R)) tag mark) :
    Agrees S Eq (listItem context render node checkbox tag)
      (listItem other twin more checkbox mark) := by
  have hsteady : ∀ shown seen, Steady R shown seen → Agrees S Eq (render shown) (twin seen) :=
    fun shown seen hs => hrender shown seen (hs depth)
  have hlist : ∀ child seen, R depth child seen →
      child.kind.isPlainList = seen.kind.isPlainList := by
    intro child seen hchild
    have hlike := h.kind hchild
    generalize child.kind = kind, seen.kind = twin at hlike
    cases hlike <;> rfl
  have hparts := renderParts_aligned hrender hskip hlist (fun child hs => hs.2.2)
    (h.children hnode)
  refine agrees_bind_eq (renderCaption_agrees hsteady htag) fun tag =>
    agrees_bind hparts fun parts others hsame => ?_
  rw [h.item hnode hkind]
  exact agrees_pure (hsame _ _)

theorem format_agrees (contents : List Char)
    (hreference : ∀ label, node.kind = .footnoteReference label →
      Agrees S Eq (footnoteReference context node) (footnoteReference other more)) :
    Agrees S Eq (format context render node contents) (format other twin more contents) := by
  have hsteady : ∀ shown seen, Steady R shown seen → Agrees S Eq (render shown) (twin seen) :=
    fun shown seen hs => hrender shown seen (hs depth)
  have hlike := h.kind hnode
  simp only [format]
  generalize hkind : node.kind = kind, more.kind = twinKind at hlike
  cases hlike with
  | headline alike htitle =>
      simp only [headline, alike.1, alike.2]
      split
      · exact agrees_pure rfl
      · exact agrees_bind_eq (renderAll_agrees hsteady htitle) fun text => agrees_pure rfl
  | listItem htag => exact h.listItem_agrees hrender hskip hnode hkind htag
  | @footnoteReference label => exact hreference label hkind
  | footnoteDefinition => exact agrees_pure rfl
  | plain hplain =>
      cases kind with
      | headline info title | listItem checkbox tag | footnoteReference label
      | footnoteDefinition label => cases hplain
      | paragraph =>
          -- Paragraphs are no frames, so their children are related one by one.
          have hchildren := (h.children hnode).forall₂ fun child hs => by
            have hframe := hs.1
            rw [hkind] at hframe
            cases hframe
          simp only [paragraph, h.startsWithHash_eq hchildren]
          exact agrees_pure rfl
      | table type value =>
          cases type with
          | drawing => exact agrees_pure (h.drawing hnode hkind)
          | rows =>
              simp only [table, h.setting_eq (·.defaultTableClass) fun _ => rfl]
              exact agrees_bind_eq (renderCaption_agrees hsteady (h.caption hnode hkind))
                fun caption => agrees_pure rfl
      | tableCell =>
          simp only [tableCell, h.cell hnode hkind]
          exact agrees_pure rfl
      | link type path => exact h.link_agrees hsteady hnode hkind contents
      | plainText value =>
          simp only [h.setting_eq run fun _ => rfl]
          exact agrees_pure rfl
      | _ => exact agrees_pure rfl

/-- Related nodes are rendered alike, given that this holds for what they show. -/
theorem renderWith_agrees (hreference : ∀ label, node.kind = .footnoteReference label →
      Agrees S Eq (footnoteReference context node) (footnoteReference other more)) :
    Agrees S Eq (renderWith context render node) (renderWith other twin more) := by
  have hlike := h.kind hnode
  have hcontents : Agrees S Eq (contentsOf render node) (contentsOf twin more) := by
    have hdescends : descends node.kind = descends more.kind := by
      generalize node.kind = kind, more.kind = twin at hlike
      cases hlike with
      | headline alike _ => rw [descends, descends, alike.1]
      | _ => rfl
    rw [contentsOf, contentsOf, hdescends]
    split
    · exact renderAll_aligned hrender hskip (h.children hnode)
    · exact agrees_pure rfl
  have hspace : withSpace node = withSpace more := by
    funext markup
    rw [withSpace, withSpace, h.postBlank hnode]
    generalize node.kind = kind, more.kind = twin at hlike
    cases hlike <;> rfl
  rw [renderWith_eq, renderWith_eq, hspace]
  exact agrees_bind_eq hcontents fun contents =>
    agrees_bind_eq (h.format_agrees hrender hskip hnode contents hreference)
      fun markup => agrees_pure rfl

end Step

/-- Related nodes are rendered alike, and meet related references in the same order. -/
theorem renderNode_agrees {depth : Nat} {node more : Node} (hnode : R depth node more) :
    Agrees (Footnotes.Twin (Steady R)) Eq (renderNode context depth node)
      (renderNode other depth more) := by
  induction depth generalizing node more with
  | zero => exact fun _ _ _ => .none
  | succ depth ih =>
      refine h.renderWith_agrees (fun shown seen hs => ih hs) (fun child hs => ?_) hnode
        fun label hkind => h.footnoteReference_agrees hnode hkind
      obtain ⟨depth, rfl⟩ := Nat.exists_eq_add_of_lt hs.2.1
      rw [Nat.zero_add]
      exact ⟨renderNode_silent context depth hs.2.2, renderNode_silent other depth hs.2.2⟩

/-- The loops of the two sections go through related references and texts. -/
theorem footnoteEntries_agrees (depth fuel place : Nat) :
    Agrees (Footnotes.Twin (Steady R)) Eq
      (footnoteEntries context (renderNode context depth) fuel place)
      (footnoteEntries other (renderNode other depth) fuel place) := by
  induction fuel generalizing place with
  | zero => exact fun _ _ _ => .none
  | succ fuel ih =>
      intro notes others hs
      have hat := hs.referenceAt? place
      rw [footnoteEntries, footnoteEntries, run_get_bind, run_get_bind]
      generalize notes.referenceAt? place = reference, others.referenceAt? place = twin at hat
      cases hat with
      | none => exact .some ⟨rfl, hs⟩
      | @some node more hnode =>
          have htext := h.text hnode
          dsimp only
          generalize context.index.footnoteText? node = nodes,
            other.index.footnoteText? more = seen at htext
          cases htext with
          | none => exact ih (place + 1) notes others hs
          | some hnodes =>
              have htexts := renderAll_agrees (fun shown seen hshown =>
                h.renderNode_agrees (hshown depth)) hnodes
              exact agrees_bind_eq htexts (fun text => agrees_bind_eq (ih (place + 1))
                fun rest => agrees_pure rfl) notes others hs

end Corresponds

end OutlineWiki
