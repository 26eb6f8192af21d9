import Mathlib.Data.List.Basic
import MessageFormat.Proofs.Outlines

/-!
# Parsing and the grammar

The grammar decides which texts are messages and what they hold: a text is parsed exactly when it
has a derivation (`derives_of_parse`, `parse_of_derives`), and the message that is returned is the
one described by the derivation. The walk through all depths follows the tree of derivations, one
level of the text for each of its nodes.
-/

namespace MessageFormat

open Grammar Place

/-! ### Gathering -/

/-- Gathering succeeds when all readings do, with what they found one after the other. -/
theorem gather_map_eq_ok_iff {α : Type} {l : List α} {f : α → Except Fault (List Element)}
    {g : α → List Element} {found : List Element}
    (hg : ∀ x ∈ l, ∀ part, f x = .ok part → part = g x) :
    gather (l.map f) = .ok found ↔ (∀ x ∈ l, f x = .ok (g x)) ∧ found = l.flatMap g := by
  induction l generalizing found with
  | nil => simp [gather, eq_comm]
  | cons x l ih =>
      have hrest := @ih (l.flatMap g) fun y hy => hg y (List.mem_cons_of_mem _ hy)
      rw [List.map_cons, List.flatMap_cons, List.forall_mem_cons]
      cases hx : f x with
      | error fault => simp [gather]
      | ok part =>
          obtain rfl := hg x (by simp) part hx
          rw [gather]
          constructor
          · intro h
            cases hgather : gather (l.map f) with
            | error fault =>
                rw [hgather] at h
                cases h
            | ok found' =>
                obtain ⟨hall, rfl⟩ := (ih fun y hy => hg y (List.mem_cons_of_mem _ hy)).1 hgather
                rw [hgather] at h
                cases h
                exact ⟨⟨rfl, hall⟩, rfl⟩
          · rintro ⟨⟨-, hall⟩, rfl⟩
            rw [hrest.2 ⟨hall, rfl⟩]
            rfl

/-- Gathering fails when one of the readings does. -/
theorem gather_append_error_ne_ok (l : List (Except Fault (List Element))) (fault : Fault)
    (found : List Element) : gather (l ++ [.error fault]) ≠ .ok found := by
  induction l generalizing found with
  | nil => simp [gather]
  | cons r l ih =>
      cases r with
      | error fault => simp [gather]
      | ok part =>
          rw [List.cons_append, gather]
          intro h
          cases hgather : gather (l ++ [.error fault]) with
          | error fault =>
              rw [hgather] at h
              cases h
          | ok found' => exact ih found' hgather

/-! ### Walking through all depths -/

/-- The elements of all depths of a text; none if it is no message. -/
def elementsIn (text : String) : List Element :=
  (allElements text.toList).toOption.getD []

/-- A text that is walked through has the elements found. -/
theorem elementsIn_eq {text : String} {found : List Element}
    (h : allElements text.toList = .ok found) : elementsIn text = found := by
  rw [elementsIn, h]
  rfl

/-- A body is walked through when its text is. -/
theorem Body.elements_eq_ok_iff {b : Body} {found : List Element} :
    b.elements = .ok found ↔ allElements b.text = .ok found := by
  rw [elements]
  cases allElements b.text <;> simp [Except.mapError]

/-- The bodies of an element are walked through when the texts of its branches are. -/
theorem gather_bodies_eq_ok_iff {content : Content} {bodies : List Body} {found : List Element}
    (h : content.HasBodies bodies) :
    gather (bodies.map Body.elements) = .ok found ↔
      (∀ b ∈ content.branches, allElements b.text.toList = .ok (elementsIn b.text)) ∧
        found = content.branches.flatMap fun b => elementsIn b.text := by
  -- Bodies know their positions and branches do not, so only the texts can be compared.
  have hbodies : bodies.map (fun b => String.ofList b.text) = content.branches.map (·.text) := by
    have := congrArg (List.map String.ofList) h
    simpa [Function.comp_def] using this
  have hflat : (bodies.flatMap fun b => elementsIn (String.ofList b.text)) =
      content.branches.flatMap fun b => elementsIn b.text := by
    rw [← List.flatMap_map (fun b : Body => String.ofList b.text), hbodies, List.flatMap_map]
  have hall : (∀ b ∈ bodies, b.elements = .ok (elementsIn (String.ofList b.text))) ↔
      ∀ b ∈ content.branches, allElements b.text.toList = .ok (elementsIn b.text) := by
    have hmap := List.forall_mem_map (l := bodies) (f := fun b => String.ofList b.text)
      (P := fun text => allElements text.toList = .ok (elementsIn text))
    rw [hbodies, List.forall_mem_map] at hmap
    simpa only [Body.elements_eq_ok_iff, String.toList_ofList] using hmap.symm
  rw [gather_map_eq_ok_iff (g := fun b => elementsIn (String.ofList b.text)), hall, hflat]
  intro b _ part hpart
  rw [Body.elements_eq_ok_iff] at hpart
  exact (elementsIn_eq (by rwa [String.toList_ofList])).symm

/-- A piece is walked through when the texts of its branches are. -/
theorem Piece.gather_eq_ok_iff {piece : Piece} {part : List Element}
    (h : piece.element.content.HasBodies piece.bodies) :
    (gather (piece.bodies.map Body.elements)).map (piece.element :: ·) = .ok part ↔
      (∀ b ∈ piece.element.content.branches,
        allElements b.text.toList = .ok (elementsIn b.text)) ∧
      part = piece.element ::
        piece.element.content.branches.flatMap fun b => elementsIn b.text := by
  constructor
  · intro hpart
    cases hgather : gather (piece.bodies.map Body.elements) with
    | error fault =>
        rw [hgather] at hpart
        cases hpart
    | ok inner =>
        obtain ⟨hall, rfl⟩ := (gather_bodies_eq_ok_iff h).1 hgather
        rw [hgather] at hpart
        cases hpart
        exact ⟨hall, rfl⟩
  · rintro ⟨hall, rfl⟩
    rw [(gather_bodies_eq_ok_iff h).2 ⟨hall, rfl⟩]
    rfl

/-- A text is walked through when the texts of all branches are, level by level. -/
theorem allElements_eq_ok_iff {text : List Char} {elements found : List Element}
    (h : (Outline.ofChars text).Reads elements) :
    allElements text = .ok found ↔
      (∀ e ∈ elements, ∀ b ∈ e.content.branches,
        allElements b.text.toList = .ok (elementsIn b.text)) ∧
      found = elements.flatMap fun e =>
        e :: e.content.branches.flatMap fun b => elementsIn b.text := by
  rw [allElements_eq, Outline.elementsWith, h.fault, h.pending, ← h.elements,
    List.forall_mem_map, List.flatMap_map]
  simp only [List.map_nil, Option.map_none, Option.toList_none, List.append_nil]
  rw [gather_map_eq_ok_iff (g := fun piece => piece.element ::
    piece.element.content.branches.flatMap fun b => elementsIn b.text)]
  · refine and_congr_left fun _ => forall₂_congr fun piece hmem => ?_
    rw [Piece.gather_eq_ok_iff (h.bodies piece hmem)]
    exact and_iff_left rfl
  · intro piece hmem part hpart
    exact ((Piece.gather_eq_ok_iff (h.bodies piece hmem)).1 hpart).2

/-- The branches of the elements of a text are shorter than the text. -/
theorem length_branch_lt {text : List Char} {elements : List Element}
    (h : (Outline.ofChars text).Reads elements) {e : Element} (he : e ∈ elements) {b : Branch}
    (hb : b ∈ e.content.branches) : b.text.toList.length < text.length := by
  rw [← h.elements] at he
  obtain ⟨piece, hpiece, rfl⟩ := List.mem_map.1 he
  have hmem : b.text.toList ∈ piece.bodies.map (·.text) := by
    rw [h.bodies piece hpiece]
    exact List.mem_map_of_mem hb
  obtain ⟨body, hbody, heq⟩ := List.mem_map.1 hmem
  rw [← heq]
  exact Outline.length_text_lt (Outline.mem_bodies_of_piece hpiece hbody)

/-! ### Derivations -/

/-- A text that is walked through has a derivation. -/
theorem derives_of_allElements {text : List Char} {found : List Element}
    (h : allElements text = .ok found) :
    Derives text ((Outline.ofChars text).pieces.map (·.element)) (found.map (·.content)) := by
  have hfault : (Outline.ofChars text).fault = none := by
    cases hfault : (Outline.ofChars text).fault with
    | none => rfl
    | some fault =>
        rw [allElements_eq, Outline.elementsWith, hfault] at h
        exact absurd h (gather_append_error_ne_ok _ _ _)
  obtain ⟨elements, helements⟩ := Outline.elements_of_read (i := 0) hfault
  have hreads := Outline.read_of_elements helements
  obtain ⟨hall, rfl⟩ := (allElements_eq_ok_iff hreads).1 h
  -- The walk decides about a branch by its text alone, and that text is shorter.
  have hinside : ∀ e ∈ elements, ∀ b ∈ e.content.branches,
      Derives b.text.toList ((Outline.ofChars b.text.toList).pieces.map (·.element))
        ((elementsIn b.text).map (·.content)) := by
    intro e he b hb
    have hlt := length_branch_lt hreads he hb
    exact derives_of_allElements (hall e he b hb)
  have hderives := Derives.intro
    (fun b => (Outline.ofChars b.toList).pieces.map (·.element))
    (fun b => (elementsIn b).map (·.content)) helements hinside
  rw [show (Outline.ofChars text).pieces.map (·.element) = elements from hreads.elements]
  simpa only [List.map_flatMap, List.map_cons] using hderives
  termination_by text.length

/-- A text that has a derivation is walked through. -/
theorem allElements_of_derives {text : List Char} {elements : List Element}
    {contents : List Content} (h : Derives text elements contents) :
    ∃ found, allElements text = .ok found ∧ contents = found.map (·.content) ∧
      (Outline.ofChars text).pieces.map (·.element) = elements := by
  induction h with
  | @intro text elements top inside helements _ ih =>
      have hreads := Outline.read_of_elements helements
      have hfound : ∀ e ∈ elements, ∀ b ∈ e.content.branches,
          allElements b.text.toList = .ok (elementsIn b.text) ∧
            inside b.text = (elementsIn b.text).map (·.content) := by
        intro e he b hb
        obtain ⟨found, hfound, hcontents, -⟩ := ih e he b hb
        rw [elementsIn_eq hfound]
        exact ⟨hfound, hcontents⟩
      refine ⟨_, (allElements_eq_ok_iff hreads).2 ⟨fun e he b hb => (hfound e he b hb).1, rfl⟩, ?_,
        hreads.elements⟩
      rw [List.map_flatMap]
      refine List.flatMap_congr fun e he => ?_
      rw [List.map_cons, List.map_flatMap]
      exact congrArg (e.content :: ·) (List.flatMap_congr fun b hb => (hfound e he b hb).2)

/-- The grammar is unambiguous: all derivations of a text give the same elements and contents. -/
theorem Grammar.Derives.unique {text : List Char} {elements elements' : List Element}
    {contents contents' : List Content} (h : Derives text elements contents)
    (h' : Derives text elements' contents') : elements = elements' ∧ contents = contents' := by
  obtain ⟨found, hfound, rfl, rfl⟩ := allElements_of_derives h
  obtain ⟨found', hfound', rfl, rfl⟩ := allElements_of_derives h'
  rw [hfound] at hfound'
  cases hfound'
  exact ⟨rfl, rfl⟩

/-- The message that a derivation describes. -/
def Grammar.described (text : String) (elements : List Element) (contents : List Content) :
    Message where
  source := text
  elements := elements
  names := distinct (contents.filterMap (·.name?))
  hasPlurals := contents.any (·.isPlural)
  hasSelect := contents.any (·.isSelect)

/-- Parsing returns what the walk through all depths has found. -/
theorem parse_eq_ok_iff_walk {text : String} {m : Message} :
    parse text = .ok m ↔
      ∃ found, allElements text.toList = .ok found ∧
        m = described text ((Outline.ofChars text.toList).pieces.map (·.element))
          (found.map (·.content)) := by
  simp only [parse, described, List.filterMap_map, List.any_map]
  constructor
  · intro h
    split at h
    · cases h
    · next found hfound =>
      cases h
      exact ⟨found, hfound, rfl⟩
  · rintro ⟨found, hfound, rfl⟩
    rw [hfound]
    rfl

/-- A message that is parsed has a derivation, which describes it. -/
theorem derives_of_parse {text : String} {m : Message} (h : parse text = .ok m) :
    ∃ contents, Derives text.toList m.elements contents ∧
      m = described text m.elements contents := by
  obtain ⟨found, hfound, rfl⟩ := parse_eq_ok_iff_walk.1 h
  exact ⟨_, derives_of_allElements hfound, rfl⟩

/-- A text that has a derivation is parsed into the message that the derivation describes. -/
theorem parse_of_derives {text : String} {elements : List Element} {contents : List Content}
    (h : Derives text.toList elements contents) :
    parse text = .ok (described text elements contents) := by
  obtain ⟨found, hfound, rfl, rfl⟩ := allElements_of_derives h
  exact parse_eq_ok_iff_walk.2 ⟨found, hfound, rfl⟩

/-- Parsing accepts exactly the texts that the grammar derives, and returns what is derived. -/
theorem parse_eq_ok_iff {text : String} {m : Message} :
    parse text = .ok m ↔
      ∃ elements contents,
        Derives text.toList elements contents ∧ m = described text elements contents := by
  constructor
  · intro h
    obtain ⟨contents, hderives, hm⟩ := derives_of_parse h
    exact ⟨m.elements, contents, hderives, hm⟩
  · rintro ⟨elements, contents, hderives, rfl⟩
    exact parse_of_derives hderives

/-! ### One level of a message -/

/-- A derivation starts with the elements of the text. -/
theorem Grammar.Derives.elements {text : List Char} {elements : List Element}
    {contents : List Content} (h : Derives text elements contents) :
    Elements 0 text elements := by
  cases h with
  | intro _ _ helements _ => exact helements

/-- The elements of a message that is parsed are those of the text. -/
theorem elements_of_parse {text : String} {m : Message} (h : parse text = .ok m) :
    Elements 0 text.toList m.elements := by
  obtain ⟨contents, hderives, -⟩ := derives_of_parse h
  exact hderives.elements

/-- A message keeps the text that it was parsed from. -/
theorem source_of_parse {text : String} {m : Message} (h : parse text = .ok m) :
    m.source = text := by
  obtain ⟨contents, -, hm⟩ := derives_of_parse h
  rw [hm]
  rfl

/-- The text is a message exactly if it can be walked through. -/
theorem isMessage_iff {text : String} :
    isMessage text = true ↔ allElements text.toList = .ok (elementsIn text) := by
  rw [isMessage, parse, elementsIn]
  cases allElements text.toList <;> simp [Except.isOk, Except.toBool, Except.toOption]

/-- A content and those of its branches at every depth. -/
def Content.withBranches (content : Content) : List Content :=
  content :: content.branches.flatMap fun b => (elementsIn b.text).map (·.content)

/-- A text with elements is parsed when its branches are messages. -/
theorem parse_eq_ok_iff_of_elements {text : String} {elements : List Element} {m : Message}
    (h : Elements 0 text.toList elements) :
    parse text = .ok m ↔
      (∀ e ∈ elements, ∀ b ∈ e.content.branches, isMessage b.text = true) ∧
        m = described text elements ((elements.map (·.content)).flatMap (·.withBranches)) := by
  have hreads : (Outline.ofChars text.toList).Reads elements := Outline.read_of_elements h
  simp only [parse_eq_ok_iff_walk, allElements_eq_ok_iff hreads, hreads.elements, isMessage_iff]
  have hcontents : (elements.flatMap fun e =>
      e :: e.content.branches.flatMap fun b => elementsIn b.text).map (·.content) =
        (elements.map (·.content)).flatMap (·.withBranches) := by
    simp only [List.map_flatMap, List.map_cons, List.flatMap_map, Content.withBranches]
  constructor
  · rintro ⟨found, ⟨hall, rfl⟩, rfl⟩
    exact ⟨hall, by rw [hcontents]⟩
  · rintro ⟨hall, rfl⟩
    exact ⟨_, ⟨hall, rfl⟩, by rw [hcontents]⟩

end MessageFormat
