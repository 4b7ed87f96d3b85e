import RemoteDebugger.Proofs.Value.Reach
import RemoteDebugger.Value.Resolver

/-!
# What is written for a value

What is written for a value is a drawing: texts of plain values, frames of containers around what is
drawn for their parts, and markers in the place of containers that are left out. A drawing does not
depend on the writer; writing a value appends the characters of its drawing to whatever has been
written before, and a writer with a limit keeps the first ones. So a text within limits is the whole
text cut once, no matter at which nesting level the limit is met, and a name in front of a text that
has been cut already is cut at the place where the name and the whole text would be.
-/

namespace RemoteDebugger

namespace Text

/-- A text if it has at most so many characters, and otherwise its first characters and an
ellipsis. -/
def atMost (limit : Nat) (s : String) : String :=
  if s.length ≤ limit then s else String.ofList (s.toList.take limit) ++ "..."

theorem atMost_of_le {limit : Nat} {s : String} (short : s.length ≤ limit) : atMost limit s = s :=
  if_pos short

theorem atMost_of_lt {limit : Nat} {s : String} (long : limit < s.length) :
    atMost limit s = String.ofList (s.toList.take limit) ++ "..." :=
  if_neg (Nat.not_le.mpr long)

/-- Cutting the end of a text before cutting the text makes no difference. -/
theorem atMost_append_atMost (limit : Nat) (front s : String) :
    atMost limit (front ++ atMost limit s) = atMost limit (front ++ s) := by
  by_cases short : s.length ≤ limit
  · rw [atMost_of_le short]
  · have long : limit < s.length := Nat.not_le.mp short
    have length : s.toList.length = s.length := String.length_toList
    have dots : "...".length = 3 := rfl
    -- what the second cut leaves of the first lies before its ellipsis
    have inside : (s.toList.take limit ++ "...".toList).take (limit - front.toList.length) =
        s.toList.take (limit - front.toList.length) := by
      rw [List.take_append_of_le_length (by rw [List.length_take]; omega), List.take_take,
        Nat.min_eq_left (Nat.sub_le _ _)]
    rw [atMost_of_lt long, atMost_of_lt (s := front ++ s), atMost_of_lt]
    · simp only [String.toList_append, String.toList_ofList]
      rw [List.take_append, inside, ← List.take_append]
    · simp only [String.length_append, String.length_ofList, List.length_take]
      omega
    · rw [String.length_append]
      omega

/-- Texts with a separator between them are the first text, and then the separator before each
other. -/
theorem intercalate_cons (sep cs : List Char) (rest : List (List Char)) :
    sep.intercalate (cs :: rest) = cs ++ rest.flatMap fun ds => sep ++ ds := by
  induction rest generalizing cs with
  | nil => simp
  | cons ds rest ih => simp [ih]

end Text

namespace Writer

variable {w : Writer} {cs ds : List Char}

@[simp]
theorem put_append (w : Writer) (cs ds : List Char) : w.put (cs ++ ds) = (w.put cs).put ds :=
  List.foldl_append

/-- Once the text has been cut, nothing more is written. -/
@[simp] theorem put_of_cut (cut : w.cut = true) (cs : List Char) : w.put cs = w := by
  induction cs with
  | nil => rfl
  | cons c cs ih =>
      have same : w.putChar c = w := by rw [putChar, if_pos cut]
      exact (congrArg (put · cs) same).trans ih

/-- A writer with a limit keeps the characters it has room for. -/
theorem put_limited {room : Nat} (uncut : w.cut = false) (limited : w.room = some room) :
    (w.put cs).text = w.text ++ String.ofList (cs.take room) ∧
      (w.put cs).cut = decide (room < cs.length) := by
  induction cs generalizing w room with
  | nil => simp [put, uncut]
  | cons c cs ih =>
      change ((w.putChar c).put cs).text = _ ∧ ((w.putChar c).put cs).cut = _
      cases room with
      | zero =>
          have full : w.putChar c = { w with cut := true } := by simp [putChar, uncut, limited]
          rw [full, put_of_cut rfl]
          simp
      | succ room =>
          have fits : w.putChar c = { w with text := w.text.push c, room := some room } := by
            simp [putChar, uncut, limited]
          rw [fits]
          obtain ⟨text, cut⟩ := ih (w := { w with text := w.text.push c, room := some room })
            uncut rfl
          rw [text, cut]
          refine ⟨String.toList_inj.mp (by simp), by simp⟩

/-- Without a limit everything is written and nothing is cut. -/
theorem put_unlimited (uncut : w.cut = false) (unlimited : w.room = none) :
    (w.put cs).text = w.text ++ String.ofList cs ∧ (w.put cs).cut = false := by
  induction cs generalizing w with
  | nil => simp [put, uncut]
  | cons c cs ih =>
      change ((w.putChar c).put cs).text = _ ∧ ((w.putChar c).put cs).cut = _
      have fits : w.putChar c = { w with text := w.text.push c } := by
        simp [putChar, uncut, unlimited]
      rw [fits]
      obtain ⟨text, cut⟩ := ih (w := { w with text := w.text.push c }) uncut unlimited
      exact ⟨text.trans (String.toList_inj.mp (by simp)), cut⟩

/-- What a writer with a limit ends with is the text cut once. -/
@[simp] theorem finish_bounded (limit : Nat) (cs : List Char) :
    ((bounded limit).put cs).finish = Text.atMost limit (String.ofList cs) := by
  obtain ⟨text, cut⟩ := @put_limited (bounded limit) cs limit rfl rfl
  have start : (bounded limit).text = "" := rfl
  rw [start, String.empty_append] at text
  rw [finish, text, cut]
  by_cases short : cs.length ≤ limit
  · rw [Text.atMost_of_le (by simpa using short), List.take_of_length_le short]
    simp [short]
  · rw [Text.atMost_of_lt (by simpa using short), String.toList_ofList]
    simp [short]

@[simp]
theorem finish_unbounded (cs : List Char) : (unbounded.put cs).finish = String.ofList cs := by
  obtain ⟨text, cut⟩ := @put_unlimited unbounded cs rfl rfl
  rw [finish, cut, text]
  exact String.empty_append

/-- Items that are put one by one are put as one text, with separators between them. -/
theorem putItems_eq {α : Type} {item : Writer → α → Writer} {text : α → List Char} {xs : List α}
    (put_item : ∀ x ∈ xs, ∀ w : Writer, item w x = w.put (text x)) (w : Writer) :
    w.putItems item xs = w.put ([',', ' '].intercalate (xs.map text)) := by
  cases xs with
  | nil => rfl
  | cons x rest =>
      have more (ys : List α) (inside : ∀ y ∈ ys, y ∈ x :: rest) (w : Writer) :
          ys.foldl (fun w y => if w.cut then w else item (w.putStr ", ") y) w =
            w.put (ys.flatMap fun y => [',', ' '] ++ text y) := by
        induction ys generalizing w with
        | nil => rfl
        | cons y ys ih =>
            rw [List.foldl_cons, ih fun z member => inside z (List.mem_cons_of_mem _ member)]
            by_cases cut : w.cut = true
            · rw [if_pos cut, put_of_cut cut, put_of_cut cut]
            · rw [if_neg cut, put_item y (inside y List.mem_cons_self), List.flatMap_cons,
                put_append, put_append]
              rfl
      rw [putItems, more rest (fun y => List.mem_cons_of_mem x), put_item x List.mem_cons_self,
        List.map_cons, Text.intercalate_cons, put_append, List.flatMap_map]

end Writer

namespace Value

/-- What a container is, apart from which one it is. -/
inductive ContainerKind where
  | list
  | tuple
  | set
  | dict
  deriving DecidableEq, Repr

def Container.kind : Container → ContainerKind
  | .list _ => .list
  | .tuple _ => .tuple
  | .set _ => .set
  | .dict _ => .dict

def ContainerKind.marker : ContainerKind → List Char
  | .list => "[...]".toList
  | .tuple => "(...)".toList
  | .set | .dict => "\x7b...\x7d".toList

def ContainerKind.entries : List (List Char) → List (List Char)
  | key :: value :: rest => (key ++ [':', ' '] ++ value) :: entries rest
  | _ => []

/-- The text of a container, given the texts of its parts. -/
def ContainerKind.frame : ContainerKind → List (List Char) → List Char
  | .list, ts => '[' :: ([',', ' '].intercalate ts ++ [']'])
  | .tuple, [t] => '(' :: (t ++ [',', ')'])
  | .tuple, ts => '(' :: ([',', ' '].intercalate ts ++ [')'])
  | .set, [] => "set()".toList
  | .set, ts => '\x7b' :: ([',', ' '].intercalate ts ++ ['\x7d'])
  | .dict, ts => '\x7b' :: ([',', ' '].intercalate (entries ts) ++ ['\x7d'])

/-- What is drawn for a value: a text, or a container with what is drawn for its parts, or the
marker of a container that is left out. -/
inductive Drawing where
  | text (cs : List Char)
  | marker (k : ContainerKind)
  | full (k : ContainerKind) (parts : List Drawing)

mutual

def Drawing.chars : Drawing → List Char
  | .text cs => cs
  | .marker k => k.marker
  | .full k parts => k.frame (charsOfAll parts)

/-- The characters of drawings, one by one. -/
def Drawing.charsOfAll : List Drawing → List (List Char)
  | [] => []
  | d :: rest => d.chars :: charsOfAll rest

end

theorem Drawing.charsOfAll_eq (ds : List Drawing) : charsOfAll ds = ds.map chars := by
  induction ds with
  | nil => rfl
  | cons d rest ih => rw [charsOfAll, ih, List.map_cons]

/-- What is drawn for a value inside the given open containers, with so many nesting levels left. -/
def drawing (h : Heap) (levels : Nat) (opened : List Container) (v : Value) : Drawing :=
  match v.shape with
  | .text cs => .text cs
  | .container c =>
    if c ∈ opened then .marker c.kind
    else match levels with
      | 0 => .marker c.kind
      | levels + 1 => .full c.kind ((c.parts h).map (drawing h levels (c :: opened)))

section

variable {h : Heap} {levels : Nat} {opened : List Container} {v : Value} {c : Container}

theorem drawing_text {cs : List Char} (plain : v.shape = .text cs) :
    drawing h levels opened v = .text cs := by
  rw [drawing.eq_def, plain]

/-- A container that is being drawn already, or that is too deep, is drawn as its marker. -/
theorem drawing_marker (is : v.container? = some c) (shut : c ∈ opened ∨ levels = 0) :
    drawing h levels opened v = .marker c.kind := by
  rw [drawing.eq_def, container?_eq_some_iff.mp is]
  rcases shut with inside | rfl
  · exact if_pos inside
  · exact ite_self _

/-- Any other container is drawn with all its parts, one level deeper and with itself among those
being drawn. -/
theorem drawing_full (is : v.container? = some c) (new : c ∉ opened) :
    drawing h (levels + 1) opened v =
      .full c.kind ((c.parts h).map (drawing h levels (c :: opened))) := by
  rw [drawing.eq_def, container?_eq_some_iff.mp is]
  exact if_neg new

/-- A value has a text of its own or is a container. -/
theorem text_or_container (v : Value) :
    (∃ cs, v.shape = .text cs) ∨ ∃ c, v.container? = some c := by
  cases v <;> simp [shape, container?]

end

@[simp]
theorem putStr_marker (w : Writer) (c : Container) : w.putStr c.marker = w.put c.kind.marker := by
  cases c <;> rfl

/-- The entries of a dictionary are written from its parts in pairs, keys and values in turn. -/
theorem entries_parts (text : Value → List Char) (es : List (Value × Value)) :
    ContainerKind.entries ((es.flatMap fun e => [e.1, e.2]).map text) =
      es.map fun e => text e.1 ++ [':', ' '] ++ text e.2 := by
  induction es with
  | nil => rfl
  | cons e rest ih =>
      rw [List.map_cons, ← ih]
      rfl

/-- If writing a part of a container puts a text, then writing the container puts them in its
frame. -/
theorem Container.write_eq_put {h : Heap} {item : Writer → Value → Writer}
    {text : Value → List Char}
    {c : Container} (put_item : ∀ x ∈ c.parts h, ∀ w : Writer, item w x = w.put (text x))
    (w : Writer) :
    c.write h item w = w.put (c.kind.frame ((c.parts h).map text)) := by
  have enclosed (front : Char) (back : List Char) {α : Type} {item : Writer → α → Writer}
      {text : α → List Char} {xs : List α}
      (put_item : ∀ x ∈ xs, ∀ w : Writer, item w x = w.put (text x)) :
      ((w.put [front]).putItems item xs).put back =
        w.put (front :: ([',', ' '].intercalate (xs.map text) ++ back)) := by
    rw [Writer.putItems_eq put_item, ← Writer.put_append, ← Writer.put_append]
    rfl
  cases c with
  | list r => exact enclosed '[' [']'] put_item
  | tuple r =>
      change ∀ x ∈ h.tuples.get r, _ at put_item
      change _ = w.put (ContainerKind.frame .tuple ((h.tuples.get r).map text))
      rw [Container.write]
      match items : h.tuples.get r with
      | [] => exact enclosed '(' [')'] (items ▸ put_item)
      | [x] =>
          rw [items] at put_item
          change (item (w.put ['(']) x).put [',', ')'] = w.put ('(' :: (text x ++ [',', ')']))
          rw [put_item x List.mem_cons_self, ← Writer.put_append, ← Writer.put_append]
          rfl
      | x :: y :: rest => exact enclosed '(' [')'] (items ▸ put_item)
  | set r =>
      change ∀ x ∈ h.sets.get r, _ at put_item
      change _ = w.put (ContainerKind.frame .set ((h.sets.get r).map text))
      rw [Container.write]
      match items : h.sets.get r with
      | [] => rfl
      | x :: rest => exact enclosed '\x7b' ['\x7d'] (items ▸ put_item)
  | dict r =>
      have put_entry (e : Value × Value) (entry : e ∈ h.dicts.get r) (w : Writer) :
          item ((item w e.1).putStr ": ") e.2 = w.put (text e.1 ++ [':', ' '] ++ text e.2) := by
        have inside := mem_parts_of_entry entry
        rw [put_item e.2 inside.2, put_item e.1 inside.1, Writer.put_append, Writer.put_append]
        rfl
      have framed := enclosed '\x7b' ['\x7d'] put_entry
      rw [← entries_parts] at framed
      exact framed

/-- A value of which no container is opened is written as it is drawn: as its text or a marker. -/
theorem write_of_not_opening {h : Heap} {levels : Nat} {opened : List Container} {v : Value}
    (shut : ∀ c, v.container? = some c → c ∈ opened ∨ levels = 0) (w : Writer) :
    v.write h levels opened w = w.put (drawing h levels opened v).chars := by
  rw [write.eq_def]
  dsimp only
  by_cases cut : w.cut = true
  · rw [if_pos cut, Writer.put_of_cut cut]
  · rw [if_neg cut]
    rcases text_or_container v with ⟨cs, plain⟩ | ⟨c, is⟩
    · rw [drawing_text plain, plain]
      rfl
    · rw [drawing_marker is (shut c is), container?_eq_some_iff.mp is]
      rcases shut c is with inside | rfl
      · exact (if_pos (List.contains_iff_mem.mpr inside)).trans (putStr_marker w c)
      · exact (ite_self _).trans (putStr_marker w c)

/-- Writing a value appends its drawing. -/
theorem write_eq_put (h : Heap) (levels : Nat) (opened : List Container) (w : Writer) (v : Value) :
    v.write h levels opened w = w.put (drawing h levels opened v).chars := by
  induction levels generalizing opened w v with
  | zero => exact write_of_not_opening (fun _ _ => .inr rfl) w
  | succ levels ih =>
      by_cases shut : ∀ c, v.container? = some c → c ∈ opened ∨ levels + 1 = 0
      · exact write_of_not_opening shut w
      · obtain ⟨c, opens⟩ := not_forall.mp shut
        obtain ⟨is, opens⟩ := Classical.not_imp.mp opens
        have new : c ∉ opened := (not_or.mp opens).1
        rw [drawing_full is new, Drawing.chars, Drawing.charsOfAll_eq, List.map_map, write]
        by_cases cut : w.cut = true
        · rw [if_pos cut, Writer.put_of_cut cut]
        · rw [if_neg cut, container?_eq_some_iff.mp is]
          refine (if_neg fun contained => new (List.contains_iff_mem.mp contained)).trans ?_
          exact Container.write_eq_put (fun x _ w => ih (c :: opened) w x) w

/-- The whole text of a value, with no limit on its length. -/
def fullText (h : Heap) (v : Value) (depth : Nat) : String :=
  (v.write h depth [] Writer.unbounded).finish

theorem fullText_eq (h : Heap) (v : Value) (depth : Nat) :
    v.fullText h depth = String.ofList (drawing h depth [] v).chars := by
  rw [fullText, write_eq_put, Writer.finish_unbounded]

theorem render_eq_atMost (h : Heap) (v : Value) (limits : Limits) :
    v.render h limits = Text.atMost limits.length (v.fullText h limits.depth) := by
  rw [render, write_eq_put, Writer.finish_bounded, fullText_eq]

section

variable {h h' : Heap} {v : Value}

/-- What is drawn for a value depends on the containers in it. -/
theorem drawing_congr (same : ∀ c ∈ containersIn h v, c.parts h' = c.parts h) (levels : Nat)
    (opened : List Container) : drawing h' levels opened v = drawing h levels opened v := by
  induction levels generalizing opened v with
  | zero =>
      obtain ⟨cs, plain⟩ | ⟨c, is⟩ := text_or_container v
      · rw [drawing_text plain, drawing_text plain]
      · rw [drawing_marker is (.inr rfl), drawing_marker is (.inr rfl)]
  | succ levels ih =>
      obtain ⟨cs, plain⟩ | ⟨c, is⟩ := text_or_container v
      · rw [drawing_text plain, drawing_text plain]
      · by_cases inside : c ∈ opened
        · rw [drawing_marker is (.inl inside), drawing_marker is (.inl inside)]
        · rw [drawing_full is inside, drawing_full is inside, same c ⟨v, .refl h v, is⟩]
          congr 1
          refine List.map_congr_left fun x part => ?_
          -- the containers in a part are in the value too
          refine ih (fun d below => same d ?_) (c :: opened)
          obtain ⟨w, reach, is'⟩ := below
          exact ⟨w, reach.of_part ((parts_of_container is).symm ▸ part), is'⟩

theorem render_congr (same : ∀ c ∈ containersIn h v, c.parts h' = c.parts h) (limits : Limits) :
    v.render h' limits = v.render h limits := by
  rw [render_eq_atMost, render_eq_atMost, fullText_eq, fullText_eq, drawing_congr same]

end

end Value

/-- A value is shown as its resolver renders it, if this succeeds. What is shown if it fails is not
said here. -/
theorem Registry.display_of_render {h : Heap} {v : Value} {length : Nat} {r : Registry}
    {text : String} (rendered : (lookup v r).1.render h v { length := length } = .ok text) :
    (display h v length r).1 = Text.atMost length (v.type.name ++ ": " ++ text) := by
  have lookedUp : render h v { length := length } r = (.ok text, (lookup v r).2) :=
    Prod.ext rendered rfl
  have shown : display h v length r =
      ((((Writer.bounded length).putStr v.type.name).putStr ": ").putStr text |>.finish,
        (lookup v r).2) := by
    simp only [display, bind, StateT.bind, lookedUp]
    rfl
  rw [shown, Writer.putStr, Writer.putStr, Writer.putStr, ← Writer.put_append, ← Writer.put_append,
    ← String.toList_append, ← String.toList_append, Writer.finish_bounded, String.ofList_toList,
    String.append_assoc]

namespace Value

/-- The text of a value within limits is its whole text, cut once, and so is what a registry shows
for it: the name of the type and the whole text, if the resolver of the value writes it in the
built-in way. -/
theorem rendering_is_one_cut (h : Heap) (v : Value) :
    (∀ depth length, v.render h ⟨depth, length⟩ = Text.atMost length (v.fullText h depth)) ∧
      ∀ (r : Registry) (length : Nat),
        (∀ limits, (Registry.lookup v r).1.render h v limits = .ok (v.render h limits)) →
          (Registry.display h v length r).1 =
            Text.atMost length (v.type.name ++ ": " ++ v.fullText h ({} : Limits).depth) := by
  refine ⟨fun depth length => render_eq_atMost h v ⟨depth, length⟩, fun r length builtin => ?_⟩
  rw [Registry.display_of_render (builtin _), render_eq_atMost, Text.atMost_append_atMost]

/-- A list of a text between two occurrences of the list itself. -/
def echo : Heap where
  lists := ⟨#[[.list 0, .str "a\tb", .list 0]]⟩

/-- The limit is met in the middle of the text, inside the list. -/
theorem echo_is_one_cut :
    (Registry.display echo (.list 0) 17 Registry.builtin).1 = "list: [[...], 'a\\..." := by
  have shown := (rendering_is_one_cut echo (.list 0)).2 Registry.builtin 17 fun _ => rfl
  exact shown.trans (by decide)

end Value

end RemoteDebugger
