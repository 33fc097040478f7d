import ApiPages.Proofs.Writers

/-!
Interleaved writers. A writer whose acts are carried out between those of the other one sees what
it would see alone; so all schedules in which both do the same, each in its own order, come out
alike. A directory that is missing is made by the first act, and stands from then on. One that
cannot be made leaves a writer without a document, who does nothing more; the errors may then tell
who came first.
-/
namespace ApiPages

open FileTree

inductive Writer where
  | left
  | right
  deriving DecidableEq, Repr

namespace Writer

def other : Writer → Writer
  | .left => .right
  | .right => .left

theorem other_ne (who : Writer) : who.other ≠ who := by
  cases who <;> decide

theorem eq_other_of_ne {a b : Writer} (h : a ≠ b) : a = b.other := by
  cases a <;> cases b <;> first | rfl | exact absurd rfl h

variable {α : Type} {who mover : Writer}

def of (who : Writer) (moves : List (Writer × α)) : List α :=
  moves.filterMap fun move => if move.1 = who then some move.2 else none

def alone (who : Writer) (acts : List α) : List (Writer × α) := acts.map fun act => (who, act)

theorem alone_cons (who : Writer) (a : α) (acts : List α) :
    alone who (a :: acts) = (who, a) :: alone who acts := rfl

@[simp] theorem of_cons_self (a : α) (moves : List (Writer × α)) :
    of who ((who, a) :: moves) = a :: of who moves := by
  simp [of]

theorem of_cons_of_ne (h : mover ≠ who) (a : α) (moves : List (Writer × α)) :
    of who ((mover, a) :: moves) = of who moves := by
  simp [of, h]

theorem mem_of_iff {a : α} {moves : List (Writer × α)} : a ∈ of who moves ↔ (who, a) ∈ moves := by
  simp [of, List.mem_filterMap]

@[simp] theorem of_append (before after : List (Writer × α)) :
    of who (before ++ after) = of who before ++ of who after := List.filterMap_append ..

@[simp] theorem of_alone (acts : List α) : of who (alone who acts) = acts := by
  induction acts with
  | nil => rfl
  | cons a acts ih =>
    rw [alone_cons, of_cons_self, ih]

theorem of_alone_of_ne (h : mover ≠ who) (acts : List α) : of who (alone mover acts) = [] := by
  induction acts with
  | nil => rfl
  | cons a acts ih =>
    rw [alone_cons, of_cons_of_ne h, ih]

theorem of_tail {move : Writer × α} {rest others : List (Writer × α)}
    (h : ∀ who, of who (move :: rest) = of who (move :: others)) (who : Writer) :
    of who rest = of who others := by
  obtain ⟨mover, a⟩ := move
  have hwho := h who
  by_cases hmover : mover = who
  · subst hmover
    rw [of_cons_self, of_cons_self] at hwho
    exact (List.cons.inj hwho).2
  · rwa [of_cons_of_ne hmover, of_cons_of_ne hmover] at hwho

def inTurn (who : Writer) (acts : Writer → List α) : List (Writer × α) :=
  alone who (acts who) ++ alone who.other (acts who.other)

theorem of_inTurn (first who : Writer) (acts : Writer → List α) :
    of who (inTurn first acts) = acts who := by
  rw [inTurn, of_append]
  by_cases h : who = first
  · rw [h, of_alone, of_alone_of_ne first.other_ne, List.append_nil]
  · obtain rfl := eq_other_of_ne h
    rw [of_alone, of_alone_of_ne first.other_ne.symm, List.nil_append]

end Writer

open Writer (of alone inTurn alone_cons of_cons_self of_cons_of_ne of_inTurn of_tail mem_of_iff)

abbrev Schedule := List (Writer × Act)

/-- The documents of two writers, and the world both work on. -/
structure Scene where
  documents : Writer → Option Document
  world : World

/-- Two writers, the directory they share and the names that they write to. -/
structure Writers where
  language : Writer → Text
  directory : Path
  name : Writer → Text

namespace Writers

section Runs

variable (p : Writers)

def path (who : Writer) : Path := p.directory.append (p.name who)

def turn (m : Scene) (move : Writer × Act) : Turn :=
  move.2.run (p.language move.1) (p.path move.1) (m.documents move.1) m.world

def next (m : Scene) (move : Writer × Act) : Scene :=
  ⟨Function.update m.documents move.1 (p.turn m move).document, (p.turn m move).world⟩

def after (m : Scene) (schedule : Schedule) : Scene := schedule.foldl p.next m

def outcomes (m : Scene) : Schedule → List (Writer × Option (Except StepError StepValue))
  | [] => []
  | move :: rest => (move.1, (p.turn m move).outcome) :: outcomes (p.next m move) rest

/-- Two schedules come out the same, for both writers and in the tree. -/
structure Agree (m : Scene) (schedule others : Schedule) : Prop where
  outcomes : ∀ who, of who (p.outcomes m schedule) = of who (p.outcomes m others)
  documents : (p.after m schedule).documents = (p.after m others).documents
  tree : SameEntries (p.after m schedule).world.tree (p.after m others).world.tree

structure Apart : Prop where
  is_page : ∀ who, IsPage (p.name who)
  ne : ∀ who, p.name who.other ≠ p.name who

structure Ready (here : List Text) (m : Scene) : Prop where
  standing : Standing p.directory here m.world.tree
  path : ∀ who d, m.documents who = some d → d.path = p.path who

/-- A writer sees no difference between the scenes. -/
structure SeenAlike (here : List Text) (who : Writer) (m n : Scene) : Prop where
  document : m.documents who = n.documents who
  entry : m.world.tree.get? (here ++ [p.name who]) = n.world.tree.get? (here ++ [p.name who])
  room : m.world.tree.room = n.world.tree.room

end Runs

variable {p : Writers} {here : List Text} {m n : Scene} {who : Writer} {act : Act}

section OneAct

theorem documents_next_self (m : Scene) (who : Writer) (act : Act) :
    (p.next m (who, act)).documents who = (p.turn m (who, act)).document :=
  Function.update_self ..

theorem documents_next_of_ne {other : Writer} (h : other ≠ who) (m : Scene) (act : Act) :
    (p.next m (who, act)).documents other = m.documents other :=
  Function.update_of_ne h ..

theorem turn_same (hp : p.Apart) (hm : p.Ready here m) (hn : p.Ready here n)
    (hact : act ≠ .step .obstruct) (h : p.SeenAlike here who m n) :
    SameTurn (here ++ [p.name who]) m.world n.world (p.turn m (who, act))
      (p.turn n (who, act)) := by
  have hsame := Act.run_same (p.language who) hact (hp.is_page who) (hm.path who)
    hm.standing hn.standing h.entry h.room
  rw [turn, turn, ← h.document]
  exact hsame

theorem seenAlike_self (here : List Text) (who : Writer) (m : Scene) : p.SeenAlike here who m m :=
  ⟨rfl, rfl, rfl⟩

theorem turn_trees (who : Writer) (hp : p.Apart) (hm : p.Ready here m)
    (hact : act ≠ .step .obstruct) :
    (p.turn m (who, act)).world.tree = m.world.tree ∨
      ∃ octets, m.world.tree.get? (here ++ [p.name who]) ≠ some .directory ∧
        (p.turn m (who, act)).world.tree =
          m.world.tree.set (here ++ [p.name who]) (.file octets) := by
  refine (turn_same hp hm hm hact (seenAlike_self here who m)).trees.imp And.left ?_
  rintro ⟨octets, hfree, -, htree, -⟩
  exact ⟨octets, hfree, htree⟩

theorem next_ready (hp : p.Apart) (hm : p.Ready here m) (hact : act ≠ .step .obstruct) :
    p.Ready here (p.next m (who, act)) := by
  refine ⟨?_, ?_⟩
  · rcases turn_trees who hp hm hact with hsame | ⟨octets, hfree, hset⟩
    · rw [next, hsame]
      exact hm.standing
    · rw [next, hset]
      exact hm.standing.set hfree _
  · intro other d hd
    by_cases hother : other = who
    · subst hother
      rw [documents_next_self] at hd
      exact Act.run_path (hm.path other) hd
    · rw [documents_next_of_ne hother] at hd
      exact hm.path other d hd

theorem next_frame (who : Writer) (hp : p.Apart) (hm : p.Ready here m)
    (hact : act ≠ .step .obstruct) :
    (p.next m (who, act)).world.tree.workingDirectory = m.world.tree.workingDirectory ∧
      (p.next m (who, act)).world.tree.room = m.world.tree.room ∧
      ∀ place, place ≠ here ++ [p.name who] →
        (p.next m (who, act)).world.tree.get? place = m.world.tree.get? place := by
  rcases turn_trees who hp hm hact with hsame | ⟨octets, -, hset⟩
  · rw [next, hsame]
    exact ⟨rfl, rfl, fun _ _ => rfl⟩
  · rw [next, hset]
    refine ⟨rfl, rfl, fun place hplace => ?_⟩
    rw [get?_set (by simp), if_neg hplace]

theorem seenAlike_next (hp : p.Apart) (hm : p.Ready here m) (hn : p.Ready here n)
    (hact : act ≠ .step .obstruct) (h : p.SeenAlike here who m n) :
    p.SeenAlike here who (p.next m (who, act)) (p.next n (who, act)) := by
  have hsame := turn_same hp hm hn hact h
  have hroomLeft := (next_frame who hp hm hact).2.1
  have hroomRight := (next_frame who hp hn hact).2.1
  refine ⟨?_, ?_, hroomLeft.trans (h.room.trans hroomRight.symm)⟩
  · rw [documents_next_self, documents_next_self, hsame.document]
  · rcases hsame.trees with ⟨hleft, hright⟩ | ⟨octets, -, -, hleft, hright⟩
    · rw [next, next, hleft, hright, h.entry]
    · rw [next, next, hleft, hright, get?_set (by simp), get?_set (by simp), if_pos rfl, if_pos rfl]

theorem seenAlike_next_other (hp : p.Apart) (hm : p.Ready here m) (hact : act ≠ .step .obstruct)
    (h : p.SeenAlike here who m n) {other : Writer} (hother : other ≠ who) :
    p.SeenAlike here who (p.next m (other, act)) n := by
  obtain rfl := Writer.eq_other_of_ne hother
  obtain ⟨-, hroom, hframe⟩ := next_frame who.other hp hm hact
  refine ⟨?_, ?_, hroom.trans h.room⟩
  · rw [documents_next_of_ne hother.symm, h.document]
  · have hplace : here ++ [p.name who] ≠ here ++ [p.name who.other] := fun hsame =>
      hp.ne who (List.head_eq_of_cons_eq (List.append_cancel_left hsame)).symm
    rw [hframe _ hplace, h.entry]

end OneAct

section Schedules

variable {schedule others : Schedule}

def Undisturbed (schedule : Schedule) : Prop := ∀ move ∈ schedule, move.2 ≠ .step .obstruct

/-- What a writer sees in a schedule is what it sees alone. -/
theorem seen_alone (hp : p.Apart) (hm : p.Ready here m) (hn : p.Ready here n)
    (hschedule : Undisturbed schedule) (h : p.SeenAlike here who m n) :
    of who (p.outcomes m schedule) = of who (p.outcomes n (alone who (of who schedule))) ∧
      p.SeenAlike here who (p.after m schedule) (p.after n (alone who (of who schedule))) := by
  induction schedule generalizing m n with
  | nil => exact ⟨rfl, h⟩
  | cons move rest ih =>
    obtain ⟨mover, act⟩ := move
    obtain ⟨hact, hrest⟩ := List.forall_mem_cons.mp hschedule
    by_cases hmover : mover = who
    · subst hmover
      have hsame := turn_same hp hm hn hact h
      obtain ⟨houtcomes, hseen⟩ := ih (next_ready hp hm hact) (next_ready hp hn hact) hrest
        (seenAlike_next hp hm hn hact h)
      rw [of_cons_self, alone_cons]
      refine ⟨?_, hseen⟩
      rw [outcomes, outcomes, of_cons_self, of_cons_self, hsame.outcome, houtcomes]
    · obtain ⟨houtcomes, hseen⟩ := ih (next_ready hp hm hact) hn hrest
        (seenAlike_next_other hp hm hact h hmover)
      rw [of_cons_of_ne hmover, outcomes, of_cons_of_ne hmover]
      exact ⟨houtcomes, hseen⟩

theorem after_frame (hp : p.Apart) (hm : p.Ready here m) (hschedule : Undisturbed schedule) :
    (p.after m schedule).world.tree.workingDirectory = m.world.tree.workingDirectory ∧
      (p.after m schedule).world.tree.room = m.world.tree.room ∧
      ∀ place, (∀ who, place ≠ here ++ [p.name who]) →
        (p.after m schedule).world.tree.get? place = m.world.tree.get? place := by
  induction schedule generalizing m with
  | nil => exact ⟨rfl, rfl, fun _ _ => rfl⟩
  | cons move rest ih =>
    obtain ⟨mover, act⟩ := move
    obtain ⟨hact, hrest⟩ := List.forall_mem_cons.mp hschedule
    obtain ⟨hworking, hroom, hget⟩ := next_frame mover hp hm hact
    obtain ⟨hlaterWorking, hlaterRoom, hlaterGet⟩ := ih (next_ready hp hm hact) hrest
    refine ⟨hlaterWorking.trans hworking, hlaterRoom.trans hroom, fun place hplace => ?_⟩
    exact (hlaterGet place hplace).trans (hget place (hplace mover))

theorem undisturbed_of_same (hsame : ∀ who, of who schedule = of who others)
    (h : Undisturbed schedule) : Undisturbed others := by
  rintro ⟨who, act⟩ hmove
  refine h (who, act) (mem_of_iff.mp ?_)
  rw [hsame who]
  exact mem_of_iff.mpr hmove

/-- While the directory stands, schedules in which both writers do the same agree. -/
theorem agree_of_ready (hp : p.Apart) (hm : p.Ready here m) (hschedule : Undisturbed schedule)
    (hsame : ∀ who, of who schedule = of who others) : p.Agree m schedule others := by
  have hothers := undisturbed_of_same hsame hschedule
  have hleft := fun who => seen_alone hp hm hm hschedule (seenAlike_self here who m)
  have hright := fun who => seen_alone hp hm hm hothers (seenAlike_self here who m)
  obtain ⟨hworking, hroom, hframe⟩ := after_frame hp hm hschedule
  obtain ⟨hworking', hroom', hframe'⟩ := after_frame hp hm hothers
  refine ⟨fun who => ?_, ?_, hworking.trans hworking'.symm, hroom.trans hroom'.symm,
    fun place => ?_⟩
  · rw [(hleft who).1, (hright who).1, hsame who]
  · funext who
    rw [(hleft who).2.document, (hright who).2.document, hsame who]
  · by_cases hplace : ∃ who, place = here ++ [p.name who]
    · obtain ⟨who, rfl⟩ := hplace
      rw [(hleft who).2.entry, (hright who).2.entry, hsame who]
    · have hplace : ∀ who, place ≠ here ++ [p.name who] := fun who h => hplace ⟨who, h⟩
      rw [hframe place hplace, hframe' place hplace]

end Schedules

section Opening

variable {schedule others : Schedule} {w : World} {tree : FileTree}

def blank (w : World) : Scene := ⟨fun _ => none, w⟩

def session (steps : List Step) : List Act := .create :: (steps ++ [Step.finalize]).map .step

theorem turn_create_opened (hp : p.Apart) (hclean : p.directory.fault? = none)
    (hmade : w.tree.makeDirectories p.directory = (.ok (), tree)) (who : Writer) :
    p.turn (blank w) (who, .create) = p.turn (blank { w with tree }) (who, .create) := by
  have hparent : (p.path who).parent = p.directory := Path.parent_append (hp.is_page who) _
  have hcreate := Document.create_opened (p := p.path who) (hparent ▸ hclean) (hparent ▸ hmade)
  simp only [turn, Act.run, blank, hcreate]

theorem agree_cons {move : Writer × Act} (h : p.Agree (p.next m move) schedule others) :
    p.Agree m (move :: schedule) (move :: others) := by
  obtain ⟨who, act⟩ := move
  refine ⟨fun other => ?_, h.documents, h.tree⟩
  rw [outcomes, outcomes]
  by_cases hwho : who = other
  · subst hwho
    rw [of_cons_self, of_cons_self, h.outcomes]
  · rw [of_cons_of_ne hwho, of_cons_of_ne hwho, h.outcomes]

theorem agree_of_turns {move move' : Writer × Act} (hdocuments : m.documents = n.documents)
    (hmove : p.turn m move = p.turn n move) (hmove' : p.turn m move' = p.turn n move')
    (h : p.Agree n (move :: schedule) (move' :: others)) :
    p.Agree m (move :: schedule) (move' :: others) := by
  have hnext : p.next m move = p.next n move := by rw [next, next, hdocuments, hmove]
  have hnext' : p.next m move' = p.next n move' := by rw [next, next, hdocuments, hmove']
  obtain ⟨houtcomes, hafter, htree⟩ := h
  simp only [after, List.foldl_cons, outcomes, ← hmove, ← hmove', ← hnext, ← hnext']
    at houtcomes hafter htree
  exact ⟨houtcomes, hafter, htree⟩

theorem agree_of_opened (hp : p.Apart)
    (hmade : w.tree.makeDirectories p.directory = (.ok (), tree)) {first second : Writer}
    (hschedule : Undisturbed ((first, .create) :: schedule))
    (hsame : ∀ who, of who ((first, .create) :: schedule) = of who ((second, .create) :: others)) :
    p.Agree (blank w) ((first, .create) :: schedule) ((second, .create) :: others) := by
  have hready : ∀ w here, Standing p.directory here w.tree → p.Ready here (blank w) :=
    fun _ _ hstanding => ⟨hstanding, fun _ _ hd => nomatch hd⟩
  cases hclean : p.directory.fault? with
  | some fault =>
    exact agree_of_ready hp (hready w [] (.inl (by simp [hclean]))) hschedule hsame
  | none =>
    obtain ⟨here, hthere⟩ := directoryAt_of_makeDirectories hmade
    have hopened := turn_create_opened hp hclean hmade
    exact agree_of_turns (n := blank { w with tree }) rfl (hopened first) (hopened second)
      (agree_of_ready hp (hready { w with tree } here (.inr hthere)) hschedule hsame)

theorem idle (h : m.documents who = none) (hsteps : Act.create ∉ of who schedule) :
    of who (p.outcomes m schedule) = (of who schedule).map (fun _ => none) ∧
      of who.other (p.outcomes m schedule) =
        of who.other (p.outcomes m (alone who.other (of who.other schedule))) ∧
      p.after m schedule = p.after m (alone who.other (of who.other schedule)) := by
  have hne := who.other_ne
  induction schedule generalizing m with
  | nil => exact ⟨rfl, rfl, rfl⟩
  | cons move rest ih =>
    obtain ⟨mover, act⟩ := move
    by_cases hmover : mover = who
    · subst hmover
      rw [of_cons_self, List.mem_cons, not_or] at hsteps
      obtain ⟨hact, hrest⟩ := hsteps
      obtain ⟨hown, hother, hafter⟩ := ih h hrest
      cases act with
      | create => exact absurd rfl hact
      | step s =>
        have hturn : p.turn m (mover, .step s) = ⟨none, none, m.world⟩ := by
          rw [turn, h]
          rfl
        have hnext : p.next m (mover, .step s) = m := by
          rw [next, hturn, ← h, Function.update_eq_self]
        rw [outcomes, of_cons_self, of_cons_self, of_cons_of_ne hne.symm, of_cons_of_ne hne.symm,
          List.map_cons, hturn, hnext, hown]
        refine ⟨rfl, hother, ?_⟩
        rw [← hafter, after, List.foldl_cons, hnext]
        rfl
    · obtain rfl := Writer.eq_other_of_ne hmover
      rw [of_cons_of_ne hne] at hsteps
      obtain ⟨hown, hother, hafter⟩ := ih
        (m := p.next m (who.other, act)) ((documents_next_of_ne hne.symm m act).trans h) hsteps
      rw [outcomes, of_cons_of_ne hne, of_cons_of_ne hne, of_cons_self, of_cons_self, alone_cons,
        outcomes, of_cons_self, hother]
      exact ⟨hown, rfl, hafter⟩

theorem agree_of_idle (h : m.documents who = none) (hsteps : Act.create ∉ of who schedule)
    (hsame : ∀ who, of who schedule = of who others) : p.Agree m schedule others := by
  obtain ⟨hown, hother, hafter⟩ := idle (p := p) h hsteps
  obtain ⟨hown', hother', hafter'⟩ := idle (p := p) h (hsame who ▸ hsteps)
  refine ⟨fun one => ?_, ?_, ?_⟩
  · by_cases hone : one = who
    · rw [hone, hown, hown', hsame]
    · rw [Writer.eq_other_of_ne hone, hother, hother', hsame]
  · rw [hafter, hafter', hsame]
  · rw [hafter, hafter', hsame]
    exact ⟨rfl, rfl, fun _ => rfl⟩

end Opening

section Sessions

variable {schedule : Schedule} {steps : Writer → List Step} {w : World}

theorem made_of_document (hp : p.Apart) {d : Document}
    (h : (p.turn (blank w) (who, .create)).document = some d) :
    ∃ tree, w.tree.makeDirectories p.directory = (.ok (), tree) := by
  have hopening := Document.create_opening (p.path who) w
  have hparent : (p.path who).parent = p.directory := Path.parent_append (hp.is_page who) _
  simp only [turn, Act.run, blank] at h
  split at h
  · rename_i v hopened
    rw [hopened] at hopening
    exact ⟨v.tree, hparent ▸ hopening.done.made⟩
  · cases h

theorem create_not_mem_steps (steps : List Step) : Act.create ∉ steps.map Act.step := by
  simp

theorem starts_with_create (hschedule : ∀ who, of who schedule = session (steps who)) :
    ∃ who rest, schedule = (who, .create) :: rest ∧ Act.create ∉ of who rest := by
  cases schedule with
  | nil => cases hschedule .left
  | cons move rest =>
    obtain ⟨who, act⟩ := move
    have hwho := hschedule who
    rw [of_cons_self] at hwho
    obtain ⟨rfl, hrest⟩ := List.cons.inj hwho
    exact ⟨who, rest, rfl, hrest ▸ create_not_mem_steps _⟩

theorem undisturbed_of_sessions (hschedule : ∀ who, of who schedule = session (steps who))
    (hsteps : ∀ who, Step.obstruct ∉ steps who) : Undisturbed schedule := by
  rintro ⟨who, act⟩ hmove rfl
  have hmem := mem_of_iff.mpr hmove
  rw [hschedule who] at hmem
  simp [session, hsteps who] at hmem

/-- How a schedule compares with those in which one writer is done before the other one starts. -/
structure Serializable (p : Writers) (w : World) (schedule : Schedule)
    (acts : Writer → List Act) : Prop where
  as_opened : ∀ who act, schedule.head? = some (who, act) →
    p.Agree (blank w) schedule (inTurn who acts)
  in_any_order : (∃ tree, w.tree.makeDirectories p.directory = (.ok (), tree)) →
    ∀ who, p.Agree (blank w) schedule (inTurn who acts)

/-- Two writers with two names in one directory, each of them with any steps between the opening of
its document and the last step: however they are interleaved, each has the outcomes and the document
that it has when they work one after the other, and the tree is the same. -/
theorem interleaving_is_invisible (hp : p.Apart) (hsteps : ∀ who, Step.obstruct ∉ steps who)
    (hschedule : ∀ who, of who schedule = session (steps who)) (w : World) :
    Serializable p w schedule fun who => session (steps who) := by
  have hundisturbed := undisturbed_of_sessions hschedule hsteps
  have hserial : ∀ first who, of who schedule =
      of who (inTurn first fun who => session (steps who)) := by
    intro first who
    rw [of_inTurn, hschedule]
  obtain ⟨who, rest, rfl, hrest⟩ := starts_with_create hschedule
  have hmade : (∃ tree, w.tree.makeDirectories p.directory = (.ok (), tree)) → ∀ first,
      p.Agree (blank w) ((who, .create) :: rest) (inTurn first fun who => session (steps who)) := by
    rintro ⟨tree, hmade⟩ first
    exact agree_of_opened hp hmade hundisturbed (hserial first)
  refine ⟨?_, hmade⟩
  intro first act hfirst
  cases hfirst
  cases hdocument : (p.turn (blank w) (who, .create)).document with
  | some d => exact hmade (made_of_document hp hdocument) who
  | none =>
    -- the first one has no document, so the second one works alone in either schedule
    have hnone : (p.next (blank w) (who, .create)).documents who = none :=
      (documents_next_self ..).trans hdocument
    exact agree_cons (agree_of_idle hnone hrest (of_tail (hserial who)))

end Sessions

end Writers

namespace Sample

def writers : Writers where
  language _ := "java".text
  directory := site
  name
    | .left => "Base.md".text
    | .right => "Heir.md".text

def untyped : Field := { name := ['m'.code], type := [] }

def stepsOf : Writer → List Step
  | .left => [.text "one".text, .newLine]
  | .right => [.fieldRow untyped, .finalize, .text "two".text]

/-- Both documents are opened before either is finalized. -/
def interleaved : Schedule :=
  [(.left, .create), (.right, .create), (.left, .step (.text "one".text)),
    (.right, .step (.fieldRow untyped)), (.right, .step .finalize), (.left, .step .newLine),
    (.left, .step .finalize), (.right, .step (.text "two".text)), (.right, .step .finalize)]

end Sample

open Sample

theorem sample_interleaving :
    writers.Apart ∧ (∀ who, Step.obstruct ∉ stepsOf who) ∧
      (∀ who, of who interleaved = Writers.session (stepsOf who)) ∧
      (Writers.Serializable writers ⟨.bare ["srv".text], []⟩ interleaved
        fun who => Writers.session (stepsOf who)) ∧
      ∀ who, writers.Agree (Writers.blank ⟨.bare ["srv".text], []⟩) interleaved
        (inTurn who fun who => Writers.session (stepsOf who)) := by
  have hp : writers.Apart := by
    refine ⟨fun who => ?_, fun who => ?_⟩
    · cases who <;> exact ⟨⟨by decide, by decide, by decide⟩, by decide⟩
    · cases who <;> decide
  have hsteps : ∀ who, Step.obstruct ∉ stepsOf who := by
    intro who
    cases who <;> decide
  have hschedule : ∀ who, of who interleaved = Writers.session (stepsOf who) := by
    intro who
    cases who <;> rfl
  have hserial : Writers.Serializable writers ⟨.bare ["srv".text], []⟩ interleaved
      fun who => Writers.session (stepsOf who) :=
    Writers.interleaving_is_invisible hp hsteps hschedule _
  have hmade : (FileTree.bare ["srv".text]).makeDirectories site =
      (.ok (), (FileTree.bare ["srv".text]).set ["srv".text, "site".text] .directory) := by
    decide +kernel
  exact ⟨hp, hsteps, hschedule, hserial, hserial.in_any_order ⟨_, hmade⟩⟩

end ApiPages
