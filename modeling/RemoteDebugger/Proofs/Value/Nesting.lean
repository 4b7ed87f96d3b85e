import RemoteDebugger.Proofs.Value.Rendering

/-!
# Writing cyclic values

A container is opened while a value is written unless it is open already or too deep. So the open
containers are different from each other and all of them are in the value: there are never more of
them than the nesting limit allows and than the value has containers, and the text of a cyclic value
ends without regard to the nesting limit.

No container is left out without need. A marker stands for a container at exactly those places that
lie inside the same container or too deep; a container that occurs twice side by side is written
twice. Thus for a value without cycles the text depends only on what the value unfolds to, not on
what is shared.
-/

namespace RemoteDebugger

namespace Value

/-- At a place in the first value occurs the last one. The place says which part to go to, which
part of that, and so on; the containers are those on the way, the outermost one first. -/
inductive Occurs (h : Heap) : Value → List Nat → List Container → Value → Prop
  | here (v : Value) : Occurs h v [] [] v
  | inside {v x w : Value} {c : Container} {i : Nat} {place : List Nat} {around : List Container}
      (is : v.container? = some c) (part : (c.parts h)[i]? = some x)
        (deeper : Occurs h x place around w) :
      Occurs h v (i :: place) (c :: around) w

/-- What is drawn at a place. -/
def Drawing.at? : List Nat → Drawing → Option Drawing
  | [], d => some d
  | i :: place, .full _ parts => parts[i]?.bind (at? place)
  | _ :: _, _ => none

section

variable {h : Heap} {v w : Value} {place : List Nat} {around : List Container} {levels : Nat}
  {opened : List Container} {d : Drawing}

/-- What is drawn at a place is the drawing of the value there, inside the containers on the way. -/
theorem Occurs.drawn (occurs : Occurs h v place around w)
    (found : (drawing h levels opened v).at? place = some d) :
    d = drawing h (levels - place.length) (around.reverse ++ opened) w := by
  induction occurs generalizing levels opened with
  | here v => exact (Option.some.inj found).symm
  | @inside v x w c i place around is part _ ih =>
      by_cases shut : c ∈ opened ∨ levels = 0
      · rw [drawing_marker is shut] at found
        cases found
      · obtain ⟨new, deep⟩ := not_or.mp shut
        obtain ⟨levels, rfl⟩ := Nat.exists_eq_succ_of_ne_zero deep
        rw [drawing_full is new, Drawing.at?, List.getElem?_map, part] at found
        rw [ih found, List.length_cons, Nat.succ_sub_succ, List.reverse_cons, List.append_assoc,
          List.singleton_append]

end

/-- Write a value like `write`, but open at most so many containers inside each other. What is done
about the first container beyond that is left open. -/
def writeWithin (h : Heap) (maxDepth : Nat) (beyond : List Container → Writer → Value → Writer)
    (most : Nat) (opened : List Container) (w : Writer) (v : Value) : Writer :=
  if w.cut then w
  else match v.shape with
    | .text cs => w.put cs
    | .container c =>
      if c ∈ opened ∨ maxDepth ≤ opened.length then w.putStr c.marker
      else match most with
        | 0 => beyond opened w v
        | most + 1 => c.write h (writeWithin h maxDepth beyond most (c :: opened)) w

/-- A value that occurs in a root, and the containers that are open there. -/
structure IsInside (h : Heap) (root : Value) (opened : List Container) (v : Value) : Prop where
  distinct : opened.Nodup
  known : ∀ c ∈ opened, c ∈ containersIn h root
  reach : Reaches h root v

section

variable {h : Heap} {root v : Value} {opened : List Container} {c : Container}

theorem length_le_ncard {α : Type} [DecidableEq α] {xs : List α} {s : Set α} (finite : s.Finite)
    (distinct : xs.Nodup) (inside : ∀ x ∈ xs, x ∈ s) : xs.length ≤ s.ncard := by
  rw [← List.toFinset_card_of_nodup distinct, ← Set.ncard_coe_finset]
  exact Set.ncard_le_ncard (fun x member => inside x (List.mem_toFinset.mp member)) finite

/-- When a container is opened there is room for it, and its parts are inside it. -/
theorem IsInside.opening (inside : IsInside h root opened v) (is : v.container? = some c)
    (new : c ∉ opened) :
    opened.length < (containersIn h root).ncard ∧
      ∀ x ∈ c.parts h, IsInside h root (c :: opened) x := by
  have distinct : (c :: opened).Nodup := List.nodup_cons.mpr ⟨new, inside.distinct⟩
  have known : ∀ c' ∈ c :: opened, c' ∈ containersIn h root := by
    intro c' member
    rcases List.mem_cons.mp member with rfl | member
    · exact ⟨v, inside.reach, is⟩
    · exact inside.known c' member
  refine ⟨length_le_ncard (finite_containersIn h root) distinct known, fun x part => ?_⟩
  exact ⟨distinct, known, inside.reach.step (parts_of_container is ▸ part)⟩

/-- A value that opens nothing is written as it is drawn, however few containers may be opened. -/
theorem writeWithin_of_not_opening {maxDepth : Nat}
    {beyond : List Container → Writer → Value → Writer}
    (shut : ∀ c, v.container? = some c → c ∈ opened ∨ maxDepth ≤ opened.length) (most : Nat)
    (w : Writer) :
    writeWithin h maxDepth beyond most opened w v =
      w.put (drawing h (maxDepth - opened.length) opened v).chars := by
  rw [writeWithin.eq_def]
  by_cases cut : w.cut = true
  · rw [if_pos cut, Writer.put_of_cut cut]
  · rw [if_neg cut]
    rcases text_or_container v with ⟨cs, plain⟩ | ⟨c, is⟩
    · rw [drawing_text plain, plain]
      rfl
    · rw [drawing_marker is ((shut c is).imp_right Nat.sub_eq_zero_of_le),
        container?_eq_some_iff.mp is]
      exact (if_pos (shut c is)).trans (putStr_marker w c)

/-- As long as no more containers may be opened than the nesting limit and the number of containers,
the bound is never met. -/
theorem writeWithin_eq_put {maxDepth most : Nat} {beyond : List Container → Writer → Value → Writer}
    (inside : IsInside h root opened v)
    (enough : min maxDepth (containersIn h root).ncard ≤ most + opened.length) (w : Writer) :
    writeWithin h maxDepth beyond most opened w v =
      w.put (drawing h (maxDepth - opened.length) opened v).chars := by
  induction most generalizing opened v w with
  | zero =>
      refine writeWithin_of_not_opening (fun c is => ?_) 0 w
      by_cases new : c ∈ opened
      · exact .inl new
      · have room := (inside.opening is new).1
        exact .inr (by omega)
  | succ most ih =>
      by_cases shut : ∀ c, v.container? = some c → c ∈ opened ∨ maxDepth ≤ opened.length
      · exact writeWithin_of_not_opening shut _ w
      · obtain ⟨c, opens⟩ := not_forall.mp shut
        obtain ⟨is, opens⟩ := Classical.not_imp.mp opens
        obtain ⟨new, shallow⟩ := not_or.mp opens
        obtain ⟨levels, left⟩ : ∃ levels, maxDepth - opened.length = levels + 1 :=
          ⟨maxDepth - opened.length - 1, by omega⟩
        rw [left, drawing_full is new, Drawing.chars, Drawing.charsOfAll_eq, List.map_map,
          writeWithin.eq_def]
        by_cases cut : w.cut = true
        · rw [if_pos cut, Writer.put_of_cut cut]
        · rw [if_neg cut, container?_eq_some_iff.mp is]
          refine (if_neg opens).trans (Container.write_eq_put (fun x part w => ?_) w)
          have next := ih ((inside.opening is new).2 x part) (by rw [List.length_cons]; omega) w
          rw [next, List.length_cons, Function.comp_apply]
          congr 3
          omega

end

mutual

/-- A drawing without markers is what a value unfolds to; a value with a cycle has no such
drawing. -/
def Unfolds (h : Heap) : Drawing → Value → Prop
  | .text cs, v => v.shape = .text cs
  | .marker _, _ => False
  | .full k ds, v => ∃ c, v.container? = some c ∧ c.kind = k ∧ UnfoldAll h ds (c.parts h)

/-- Values unfold to drawings one by one. -/
def UnfoldAll (h : Heap) : List Drawing → List Value → Prop
  | [], [] => True
  | d :: ds, v :: vs => Unfolds h d v ∧ UnfoldAll h ds vs
  | _, _ => False

end

/-- Replace what lies too deep in a drawing by markers. What lies above is left as it is drawn. -/
def Drawing.prune : Nat → Drawing → Drawing
  | _, .text cs => .text cs
  | _, .marker k => .marker k
  | 0, .full k _ => .marker k
  | levels + 1, .full k ds => .full k (ds.map (prune levels))

section

variable {h : Heap} {c c' : Container} {d d' : Drawing} {ds ds' : List Drawing} {v w : Value}
  {vs : List Value} {levels : Nat} {opened : List Container}

/-- A value that is drawn as a text is no container. -/
theorem not_text_of_container {cs : List Char} (plain : v.shape = .text cs) :
    v.container? ≠ some c := by
  intro is
  rw [container?_eq_some_iff.mp is] at plain
  cases plain

theorem eq_of_container? (is : v.container? = some c) (is' : w.container? = some c) : v = w := by
  cases v <;> cases is <;> cases w <;> cases is' <;> rfl

mutual

/-- A value unfolds to one drawing only. -/
theorem Unfolds.unique : ∀ {d d' : Drawing} {v : Value}, Unfolds h d v → Unfolds h d' v → d = d'
  | .text _, .text _, _, left, right => by
      obtain rfl := Shape.text.inj (left.symm.trans right)
      rfl
  | .text _, .full _ _, _, left, ⟨_, is, _⟩ => absurd is (not_text_of_container left)
  | .full _ _, .text _, _, ⟨_, is, _⟩, right => absurd is (not_text_of_container right)
  | .full _ _, .full _ _, _, ⟨c, is, kind, all⟩, ⟨c', is', kind', all'⟩ => by
      obtain rfl := Option.some.inj (is.symm.trans is')
      rw [← kind, ← kind', UnfoldAll.unique all all']

/-- Values are unfolded into drawings in one way only. -/
theorem UnfoldAll.unique : ∀ {ds ds' : List Drawing} {vs : List Value}, UnfoldAll h ds vs →
    UnfoldAll h ds' vs → ds = ds'
  | [], [], _, _, _ => rfl
  | [], _ :: _, [], _, right => right.elim
  | [], _ :: _, _ :: _, left, _ => left.elim
  | _ :: _, [], [], left, _ => left.elim
  | _ :: _, [], _ :: _, _, right => right.elim
  | _ :: _, _ :: _, _ :: _, ⟨left, all⟩, ⟨right, all'⟩ => by
      rw [left.unique right, all.unique all']

end

/-- What is drawn part by part is the same if it is the same for each part. -/
theorem UnfoldAll.map_eq {f : Value → Drawing} {g : Drawing → Drawing} (all : UnfoldAll h ds vs)
    (same : ∀ d ∈ ds, ∀ v ∈ vs, Unfolds h d v → f v = g d) : vs.map f = ds.map g := by
  induction ds generalizing vs with
  | nil =>
      cases vs with
      | nil => rfl
      | cons v vs => exact all.elim
  | cons d ds ih =>
      cases vs with
      | nil => exact all.elim
      | cons v vs =>
          rw [List.map_cons, List.map_cons, same d List.mem_cons_self v List.mem_cons_self all.1]
          refine congrArg _ (ih all.2 fun d' member v' member' => ?_)
          exact same d' (List.mem_cons_of_mem _ member) v' (List.mem_cons_of_mem _ member')

/-- Without cycles a value is drawn as it unfolds, down to the nesting limit: what it unfolds to is
smaller than what the containers around it unfold to, so it is none of them. -/
theorem drawing_of_unfolds (unfolds : Unfolds h d v)
    (smaller : ∀ c ∈ opened, ∀ w d', w.container? = some c → Unfolds h d' w →
      sizeOf d < sizeOf d') :
    drawing h levels opened v = d.prune levels := by
  induction levels generalizing d v opened with
  | zero =>
      cases d with
      | text cs => exact (drawing_text unfolds).trans (by rw [Drawing.prune])
      | marker k => exact unfolds.elim
      | full k ds =>
          obtain ⟨c, is, rfl, -⟩ := unfolds
          rw [drawing_marker is (.inr rfl), Drawing.prune]
  | succ levels ih =>
      cases d with
      | text cs => exact (drawing_text unfolds).trans (by rw [Drawing.prune])
      | marker k => exact unfolds.elim
      | full k ds =>
          obtain ⟨c, is, rfl, all⟩ := id unfolds
          have new : c ∉ opened := fun inside => Nat.lt_irrefl _ (smaller c inside v _ is unfolds)
          rw [drawing_full is new, Drawing.prune]
          congr 1
          refine all.map_eq fun d member x part below => ih below fun c' inside w d' is' unfolds' =>
            ?_
          have less : sizeOf d < sizeOf (Drawing.full c.kind ds) := by
            have := List.sizeOf_lt_of_mem member
            rw [Drawing.full.sizeOf_spec]
            omega
          rcases List.mem_cons.mp inside with rfl | inside
          · obtain rfl := eq_of_container? is' is
            rw [unfolds'.unique unfolds]
            exact less
          · exact Nat.lt_trans less (smaller c' inside w d' is' unfolds')

end

/-- What holds of the text of a value at a nesting limit. -/
structure IsCycleSafe (h : Heap) (v : Value) (maxDepth : Nat) : Prop where
  /-- At no time are more containers open inside each other than the limit allows and the value
  has. -/
  nesting : ∀ beyond w,
    writeWithin h maxDepth beyond (min maxDepth (containersIn h v).ncard) [] w v =
      v.write h maxDepth [] w
  /-- A text that is not cut is the drawing of the value. -/
  text : ∀ length, (v.write h maxDepth [] (Writer.bounded length)).cut = false →
    v.render h ⟨maxDepth, length⟩ = String.ofList (drawing h maxDepth [] v).chars
  /-- A plain value is drawn as its text. -/
  plain : ∀ {place around w cs d}, Occurs h v place around w → w.shape = .text cs →
    (drawing h maxDepth [] v).at? place = some d → d = .text cs
  /-- A container is drawn as a marker exactly where it lies in itself or too deep. -/
  marker_iff : ∀ {place around w c d}, Occurs h v place around w → w.container? = some c →
    (drawing h maxDepth [] v).at? place = some d →
    (d = .marker c.kind ↔ c ∈ around ∨ maxDepth ≤ place.length)
  /-- Anywhere else it is drawn in full, with all of its parts. -/
  full : ∀ {place around w c d}, Occurs h v place around w → w.container? = some c →
    (drawing h maxDepth [] v).at? place = some d → ¬ (c ∈ around ∨ maxDepth ≤ place.length) →
    ∃ ds, d = .full c.kind ds ∧ ds.length = (c.parts h).length
  /-- Values without cycles that unfold alike have one text, whatever they share. -/
  sharing : ∀ {h' v' d}, Unfolds h d v → Unfolds h' d v' → ∀ length,
    v.render h ⟨maxDepth, length⟩ = v'.render h' ⟨maxDepth, length⟩

/-- Writing a value ends however deep it may go, and leaves out a container only inside itself or
below the nesting limit. -/
theorem rendering_is_cycle_safe (h : Heap) (v : Value) (maxDepth : Nat) :
    IsCycleSafe h v maxDepth := by
  have drawn {place around w d} (occurs : Occurs h v place around w)
      (found : (drawing h maxDepth [] v).at? place = some d) :
      d = drawing h (maxDepth - place.length) around.reverse w := by
    rw [occurs.drawn found, List.append_nil]
  have opening {place around w c d} (occurs : Occurs h v place around w)
      (is : w.container? = some c)
      (found : (drawing h maxDepth [] v).at? place = some d)
      (opens : ¬ (c ∈ around ∨ maxDepth ≤ place.length)) :
      ∃ ds, d = .full c.kind ds ∧ ds.length = (c.parts h).length := by
    obtain ⟨new, shallow⟩ := not_or.mp opens
    obtain ⟨levels, left⟩ : ∃ levels, maxDepth - place.length = levels + 1 :=
      ⟨maxDepth - place.length - 1, by omega⟩
    rw [drawn occurs found, left, drawing_full is fun inside => new (List.mem_reverse.mp inside)]
    exact ⟨_, rfl, List.length_map _⟩
  refine ⟨fun beyond w => ?_, fun length whole => ?_, fun occurs plain found => ?_,
    fun occurs is found => ⟨fun marked => ?_, fun shut => ?_⟩, opening,
    fun unfolds unfolds' length => ?_⟩
  · have root : IsInside h v [] v := ⟨List.nodup_nil, List.forall_mem_nil _, .refl h v⟩
    rw [write_eq_put]
    exact writeWithin_eq_put root (Nat.le_refl _) w
  · rw [write_eq_put, (Writer.put_limited rfl rfl).2] at whole
    have short := Nat.not_lt.mp (of_decide_eq_false whole)
    rw [render_eq_atMost, fullText_eq, Text.atMost_of_le (by simpa using short)]
  · rw [drawn occurs found, drawing_text plain]
  · by_contra opens
    obtain ⟨ds, full, -⟩ := opening occurs is found opens
    rw [full] at marked
    cases marked
  · rw [drawn occurs found]
    exact drawing_marker is (shut.imp List.mem_reverse.mpr Nat.sub_eq_zero_of_le)
  · rw [render_eq_atMost, render_eq_atMost, fullText_eq, fullText_eq,
      drawing_of_unfolds unfolds (List.forall_mem_nil _),
      drawing_of_unfolds unfolds' (List.forall_mem_nil _)]

/-- A tuple of one list twice, a tuple of two lists, and a list of a tuple of the list and such a
tuple. -/
def pairs : Heap where
  lists := ⟨#[[.bool true], [.bool true], [.bool true], [.tuple 2]]⟩
  tuples := ⟨#[[.list 0, .list 0], [.list 1, .list 2], [.list 3, .tuple 0]]⟩

/-- The two tuples have one text. In the list that holds itself there is one marker, for the
list. -/
theorem pairs_are_cycle_safe :
    (tuple 0).render pairs ⟨8, 1000⟩ = (tuple 1).render pairs ⟨8, 1000⟩ ∧
      (list 3).render pairs ⟨8, 1000⟩ = "[([...], ([True], [True]))]" := by
  have unfolds (r : Ref) (one : pairs.lists.get r = [.bool true]) :
      Unfolds pairs (.full .list [.text "True".toList]) (.list r) :=
    ⟨.list r, rfl, rfl, by rw [Container.parts, one]; exact ⟨rfl, trivial⟩⟩
  have first : Unfolds pairs (.full .tuple [.full .list [.text "True".toList],
      .full .list [.text "True".toList]]) (.tuple 0) :=
    ⟨_, rfl, rfl, unfolds 0 rfl, unfolds 0 rfl, trivial⟩
  have second : Unfolds pairs (.full .tuple [.full .list [.text "True".toList],
      .full .list [.text "True".toList]]) (.tuple 1) :=
    ⟨_, rfl, rfl, unfolds 1 rfl, unfolds 2 rfl, trivial⟩
  exact ⟨(rendering_is_cycle_safe pairs (.tuple 0) 8).sharing first second 1000,
    (rendering_is_cycle_safe pairs (.list 3) 8).text 1000 (by decide)⟩

end Value

end RemoteDebugger
