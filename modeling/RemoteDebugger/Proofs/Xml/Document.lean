import RemoteDebugger.Proofs.Expression.Grammar
import RemoteDebugger.Proofs.Xml

/-!
# Documents are read back

An escaped text contains no mark of XML but the ampersands that start its references, so a value
ends at the first quote behind it and the end of a tag is the one that was written. A reader of
documents that knows nothing of what they are about, only tags, attributes and elements inside
elements, therefore finds exactly the elements a document was written from, whatever the texts of
their attributes are.
-/

namespace RemoteDebugger

namespace Xml

open Reader

def quoted : Reader String := fun s =>
  match s.dropWhile (· != '"') with
  | [] => none
  | _ :: rest => some (unescape (String.ofList (s.takeWhile (· != '"'))), rest)

def assignment : Reader Attribute :=
  map (fun r => (r.1.2, r.2.2))
    (seq (seq (text " ".toList) Expr.ident) (seq (text "=\"".toList) quoted))

def head : Reader (String × List Attribute) :=
  map (fun r => (r.1.2, r.2)) (seq (seq (text "<".toList) Expr.ident) (many assignment))

def closing : Reader Unit :=
  map (fun _ => ()) (seq (seq (text "</".toList) Expr.ident) (text ">".toList))

/-- The end of a tag and the elements inside, given a reader for these. -/
def ending (inner : Reader Xml) : Reader (String → List Attribute → Xml) :=
  orElse (map (fun _ tag attrs => .empty tag false attrs) (text "/>".toList))
    (orElse (map (fun _ tag attrs => .empty tag true attrs) (text " />".toList))
      (map (fun children tag attrs => .node tag attrs children)
        (between (text ">".toList) closing (many inner))))

/-- An element, given a reader for the elements inside. -/
def element (inner : Reader Xml) : Reader Xml :=
  map (fun r => r.2 r.1.1 r.1.2) (seq head (ending inner))

/-- Elements that are nested less than `depth` deep. -/
def nestedElement : Nat → Reader Xml
  | 0 => fun _ => none
  | depth + 1 => element (nestedElement depth)

/-- The elements of a document. Every element takes a character, so the length of the document
bounds how deep they are nested. -/
def readDocument (s : String) : Option (List Xml) :=
  match nestedElement s.toList.length s.toList with
  | some (.node "xml" [] children, []) => some children
  | _ => none

theorem takes_quoted : Takes 0 quoted := by
  intro s v rest read
  have suffix : s.dropWhile (· != '"') <:+ s := List.dropWhile_suffix _
  rw [quoted] at read
  split at read
  · cases read
  · rename_i quote rest' left
    cases read
    rw [left] at suffix
    have shorter := (List.suffix_cons quote rest).trans suffix
    exact ⟨shorter, shorter.length_le⟩

theorem takes_assignment : Takes 1 assignment := by
  have name : Takes 1 (seq (text " ".toList) Expr.ident) :=
    ((takes_text _).seq Expr.takes_ident).mono (Nat.le_add_left 1 _)
  have value : Takes 0 (seq (text "=\"".toList) quoted) :=
    ((takes_text _).seq takes_quoted).mono (Nat.zero_le _)
  exact (name.seq value).map _

theorem takes_head : Takes 1 head := by
  have tag : Takes 1 (seq (text "<".toList) Expr.ident) :=
    ((takes_text _).seq Expr.takes_ident).mono (Nat.le_add_left 1 _)
  exact (tag.seq takes_assignment.many).map _

theorem takes_nestedElement (depth : Nat) : Takes 1 (nestedElement depth) := by
  induction depth with
  | zero => exact takes_fail
  | succ depth ih =>
      have mark (expected : List Char) : Takes 0 (text expected) :=
        (takes_text _).mono (Nat.zero_le _)
      have closing : Takes 0 closing :=
        (((mark _).seq (Expr.takes_ident.mono (Nat.zero_le 1))).seq (mark _)).map _
      have ending : Takes 0 (ending (nestedElement depth)) := ((mark _).map _).orElse
        (((mark _).map _).orElse ((Takes.between (mark _) closing ih.many).map _))
      rw [nestedElement, element]
      exact (takes_head.seq ending).map _

/-- The value of an attribute is read back from its escaped text, whatever follows the quote. -/
@[simp] theorem quoted_append (v : String) (rest : List Char) :
    quoted ((escape v).toList ++ '"' :: rest) = some (v, rest) := by
  have inside : ∀ c ∈ (escape v).toList, (c != '"') = true := fun c member =>
    bne_iff_ne.mpr fun same => quote_notMem_escape v (same ▸ member)
  rw [quoted, List.dropWhile_append_of_pos inside, List.takeWhile_append_of_pos inside]
  simp

/-- An attribute is read back with its name and its value. -/
theorem assignment_append {a : Attribute} (h : isIdent a.1.toList = true) (rest : List Char) :
    assignment ((renderAttribute a).toList ++ rest) = some (a, rest) := by
  have written : (renderAttribute a).toList ++ rest =
      ' ' :: (a.1.toList ++ ('=' :: '"' :: ((escape a.2).toList ++ '"' :: rest))) := by
    simp [renderAttribute]
  rw [written]
  have name : Expr.ident (a.1.toList ++ '=' :: '"' :: ((escape a.2).toList ++ '"' :: rest)) = _ :=
    Expr.ident_append h rfl
  rw [String.ofList_toList] at name
  exact map_of_some (seq_of_some (seq_of_some rfl name) (seq_of_some rfl (quoted_append a.2 rest)))

/-- The names of a tag and of its attributes are identifiers. -/
def Named (tag : String) (attrs : List Attribute) : Prop :=
  ∀ name ∈ tag :: attrs.map Prod.fst, isIdent name.toList = true

instance (tag : String) (attrs : List Attribute) : Decidable (Named tag attrs) :=
  List.decidableBAll _ _

/-- The head of an element is read back with its tag and all its attributes, up to what closes
it. -/
theorem head_append {tag : String} {attrs : List Attribute} (names : Named tag attrs)
    {rest : List Char} (apart : rest.takeWhile isIdentRest = []) (stop : assignment rest = none) :
    head ('<' :: (tag.toList ++ ((renderAttributes attrs).toList ++ rest))) =
      some ((tag, attrs), rest) := by
  rw [renderAttributes, String.toList_join, List.flatMap_map]
  have others : many assignment (attrs.flatMap (fun a => (renderAttribute a).toList) ++ rest) =
      some (attrs, rest) := by
    refine many_append takes_assignment (fun a member rest => assignment_append ?_ rest) stop
    exact names a.1 (List.mem_cons_of_mem tag (List.mem_map_of_mem member))
  have ends : (attrs.flatMap (fun a => (renderAttribute a).toList) ++ rest).takeWhile isIdentRest =
      [] := by
    cases attrs with
    | nil => exact apart
    | cons a attrs =>
        have blank : isIdentRest ' ' = false := by decide
        simp [renderAttribute, blank]
  have name := Expr.ident_append (names tag List.mem_cons_self) ends
  rw [String.ofList_toList] at name
  exact map_of_some (seq_of_some (seq_of_some rfl name) others)

/-- The elements whose tags and attributes are named by identifiers. Nothing is asked of the
texts. -/
inductive IsWellFormed : Xml → Prop
  | empty {tag : String} {spaced : Bool} {attrs : List Attribute} (names : Named tag attrs) :
      IsWellFormed (.empty tag spaced attrs)
  | node {tag : String} {attrs : List Attribute} {children : List Xml} (names : Named tag attrs)
      (inside : ∀ x ∈ children, IsWellFormed x) : IsWellFormed (.node tag attrs children)

theorem toList_renderAll (xs : List Xml) :
    (renderAll xs).toList = xs.flatMap fun x => (render x).toList := by
  induction xs with
  | nil => rfl
  | cons x xs ih => rw [renderAll, String.toList_append, ih, List.flatMap_cons]

theorem toList_render_empty (tag : String) (spaced : Bool) (attrs : List Attribute) :
    (render (.empty tag spaced attrs)).toList =
      '<' :: (tag.toList ++ ((renderAttributes attrs).toList ++
      (if spaced then " />" else "/>").toList)) := by
  simp [render]

theorem toList_render_node (tag : String) (attrs : List Attribute) (children : List Xml) :
    (render (.node tag attrs children)).toList =
      '<' :: (tag.toList ++ ((renderAttributes attrs).toList ++
      '>' :: ((children.flatMap fun x => (render x).toList) ++
        ('<' :: '/' :: (tag.toList ++ ['>']))))) := by
  simp [render, toList_renderAll]

/-- Whatever the texts of its attributes are, an element is one line. -/
theorem IsWellFormed.lineFeed_notMem {x : Xml} (h : x.IsWellFormed) : '\n' ∉ (render x).toList := by
  have name {tag : String} (ident : isIdent tag.toList = true) : '\n' ∉ tag.toList :=
    fun member => absurd (Expr.isIdentRest_of_mem ident '\n' member) (by decide)
  have attributes {tag : String} {attrs : List Attribute} (names : Named tag attrs) :
      '\n' ∉ (renderAttributes attrs).toList := by
    rw [renderAttributes, String.toList_join, List.flatMap_map, List.mem_flatMap]
    rintro ⟨a, member, inside⟩
    have own := name (names a.1 (List.mem_cons_of_mem tag (List.mem_map_of_mem member)))
    have escaped := (isInert_escape a.2).no_mark '\n' (by decide)
    simp [renderAttribute, own, escaped] at inside
  induction h with
  | @empty tag spaced attrs names =>
      have own := name (names tag List.mem_cons_self)
      have theirs := attributes names
      cases spaced <;> simp [toList_render_empty, own, theirs]
  | @node tag attrs children names inside ih =>
      have own := name (names tag List.mem_cons_self)
      have theirs := attributes names
      have inner : '\n' ∉ children.flatMap fun x => (render x).toList := by
        rw [List.mem_flatMap]
        rintro ⟨x, member, written⟩
        exact ih x member written
      simp only [toList_render_node, List.mem_cons, List.mem_append, not_or]
      exact ⟨by decide, own, theirs, by decide, inner, by decide, by decide, own, by
        decide, List.not_mem_nil⟩

theorem lineFeed_notMem_document {xs : List Xml} (h : ∀ x ∈ xs, x.IsWellFormed) :
    '\n' ∉ (document xs).toList := by
  have root : IsWellFormed (.node "xml" [] xs) := .node (by decide) h
  exact root.lineFeed_notMem

/-- An element is read back from its head and from what its ending is read as. -/
theorem element_append {inner : Reader Xml} {tag : String} {attrs : List Attribute}
    (names : Named tag attrs) {s rest : List Char} {make : String → List Attribute → Xml}
    (apart : s.takeWhile isIdentRest = []) (stop : assignment s = none)
    (ends : ending inner s = some (make, rest)) :
    element inner ('<' :: (tag.toList ++ ((renderAttributes attrs).toList ++ s))) =
      some (make tag attrs, rest) :=
  map_of_some (seq_of_some (head_append names apart stop) ends)

/-- Behind the elements of a node, its closing tag is no further element. -/
@[simp] theorem nestedElement_closing (depth : Nat) (rest : List Char) :
    nestedElement depth ('<' :: '/' :: rest) = none := by
  cases depth with
  | zero => rfl
  | succ depth =>
      have no_head : head ('<' :: '/' :: rest) = none := rfl
      rw [nestedElement, element]
      exact map_of_none (seq_of_none no_head)

theorem length_render_le {x : Xml} {xs : List Xml} (member : x ∈ xs) :
    (render x).toList.length ≤ (xs.flatMap fun x => (render x).toList).length := by
  obtain ⟨before, after, rfl⟩ := List.append_of_mem member
  simp only [List.flatMap_append, List.flatMap_cons, List.length_append]
  omega

/-- No element is without a character, so a depth that is enough for one is not zero. -/
theorem exists_succ_of_length_render_le {x : Xml} {depth : Nat}
    (enough : (render x).toList.length ≤ depth) : ∃ d, depth = d + 1 := by
  have pos : 0 < (render x).toList.length := by
    cases x with
    | empty => simp [toList_render_empty]
    | node => simp [toList_render_node]
  exact ⟨depth - 1, by omega⟩

/-- An element is read back, whatever follows it. -/
theorem nestedElement_append {x : Xml} (h : x.IsWellFormed) {depth : Nat}
    (enough : (render x).toList.length ≤ depth) (rest : List Char) :
    nestedElement depth ((render x).toList ++ rest) = some (x, rest) := by
  induction h generalizing depth rest with
  | @empty tag spaced attrs names =>
      obtain ⟨depth, rfl⟩ := exists_succ_of_length_render_le enough
      rw [toList_render_empty, nestedElement]
      simp only [List.cons_append, List.append_assoc]
      have ends : ending (nestedElement depth) ((if spaced then " />" else "/>").toList ++ rest) =
          some (fun tag attrs => .empty tag spaced attrs, rest) := by
        cases spaced <;> rfl
      exact element_append names (by cases spaced <;> rfl) (by cases spaced <;> rfl) ends
  | @node tag attrs children names _ ih =>
      obtain ⟨depth, rfl⟩ := exists_succ_of_length_render_le enough
      have stop : closing ('<' :: '/' :: (tag.toList ++ '>' :: rest)) = some ((), rest) := by
        have name := Expr.ident_append (names tag List.mem_cons_self)
          (rfl : ('>' :: rest).takeWhile _ = [])
        exact map_of_some (seq_of_some (seq_of_some rfl name) rfl)
      have inside : many (nestedElement depth) ((children.flatMap fun x => (render x).toList) ++
          '<' :: '/' :: (tag.toList ++ '>' :: rest)) =
            some (children, '<' :: '/' :: (tag.toList ++ '>' :: rest)) := by
        refine many_append (takes_nestedElement depth) (fun x member rest => ?_)
          (nestedElement_closing depth _)
        have shorter := length_render_le member
        rw [toList_render_node] at enough
        simp only [List.length_cons, List.length_append] at enough
        exact ih x member (by omega) rest
      rw [toList_render_node, nestedElement]
      simp only [List.cons_append, List.append_assoc, List.nil_append]
      have ends : ending (nestedElement depth)
          ('>' :: ((children.flatMap fun x => (render x).toList) ++
          '<' :: '/' :: (tag.toList ++ '>' :: rest))) =
            some (fun tag attrs => .node tag attrs children, rest) :=
        (orElse_of_none rfl).trans ((orElse_of_none rfl).trans
          (map_of_some (between_of_some rfl inside stop)))
      exact element_append names rfl rfl ends

/-- The elements of a document are read back. -/
theorem readDocument_document {xs : List Xml} (h : ∀ x ∈ xs, x.IsWellFormed) :
    readDocument (document xs) = some xs := by
  have root : IsWellFormed (.node "xml" [] xs) := .node (by decide) h
  have read := nestedElement_append root (Nat.le_refl _) []
  rw [List.append_nil] at read
  rw [readDocument, document, read]
  rfl

end Xml

end RemoteDebugger
