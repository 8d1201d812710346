import Mathlib.Data.String.Basic
import UndoJournal.Files

/-!
# What was written is read

Writing a file follows the same components as reading it does, and it makes a directory only where
nothing was. **A way that was followed stays**: what is made later takes nothing away and turns no
directory into a file (`Files.Grown`), so the components that led to a place lead to it again.
Hence a text that was written is the text that is read (`Files.read_of_write`), however the path
goes: through directories that were there before, through those that were made for it, or up again.
-/

namespace UndoJournal

/-! ### The components of a path -/

namespace Path

open String in
/-- Splitting goes on in front of `r`, where the component at hand stands behind `l` and is `m` so
far. -/
private theorem splitOnAux_slash (l m r : List Char) (acc : List String) :
    (ofList (l ++ m ++ r)).splitOnAux "/" ⟨utf8Len l⟩ ⟨utf8Len l + utf8Len m⟩ 0 acc =
      acc.reverse ++ (List.splitOnPPrepend (· == '/') r m.reverse).map ofList := by
  -- on what is still to be read, behind what was split off and the component that is held
  induction r generalizing l m acc with
  | nil =>
    have hend := atEnd_of_valid (l ++ m) []
    have hcut := extract_of_valid l m []
    rw [utf8Len_append] at hend
    rw [splitOnAux, if_pos (hend.mpr rfl), hcut, List.splitOnPPrepend_nil, List.reverse_reverse,
      List.reverse_cons, List.map_cons, List.map_nil]
  | cons c r ih =>
    have hend := atEnd_of_valid (l ++ m) (c :: r)
    have hget := get_of_valid (l ++ m) (c :: r)
    have hnext := next_of_valid (l ++ m) c r
    have hcut := extract_of_valid l m (c :: r)
    have hslash : Pos.Raw.get "/" 0 = '/' := by decide
    have hbehind : Pos.Raw.next "/" 0 = ⟨1⟩ := by decide
    have hdone : Pos.Raw.atEnd "/" ⟨1⟩ = true := by decide
    rw [utf8Len_append] at hend hget hnext
    rw [splitOnAux, if_neg (mt hend.mp (List.cons_ne_nil c r)), hget,
      List.splitOnPPrepend_cons_eq_if]
    simp only [List.headD_cons, hslash, hnext, hbehind, hdone, if_true]
    by_cases hc : c = '/'
    · -- the component ends here, and the next one stands behind the slash
      subst hc
      have hrest := ih (l ++ m ++ ['/']) [] (ofList m :: acc)
      have hsize : Char.utf8Size '/' = 1 := by decide
      simp only [utf8Len_append, utf8Len_cons, utf8Len_nil, hsize, Nat.zero_add, Nat.add_zero,
        List.append_nil, List.append_assoc, List.singleton_append, List.reverse_cons,
        List.reverse_nil] at hrest hcut ⊢
      simp only [beq_self_eq_true, if_true, Pos.Raw.unoffsetBy, Nat.add_sub_cancel, hcut,
        List.reverse_reverse, List.map_cons]
      rw [Nat.add_assoc]
      exact hrest
    · -- the character belongs to the component that is held
      have hrest := ih l (m ++ [c]) acc
      have hstay : ∀ p : Pos.Raw, p.unoffsetBy 0 = p := fun _ => rfl
      simp only [beq_iff_eq, hc, if_false, hstay, utf8Len_append, utf8Len_cons, utf8Len_nil,
        Nat.zero_add, Nat.add_assoc, List.append_assoc, List.singleton_append,
        List.reverse_append, List.reverse_singleton] at hrest hnext ⊢
      rw [hnext]
      exact hrest

/-- The components of a path are what stands between its slashes. -/
theorem components_eq (path : String) :
    components path = (path.toList.splitOn '/').map String.ofList := by
  have h := splitOnAux_slash [] [] path.toList []
  rw [List.nil_append, List.nil_append, String.ofList_toList] at h
  rw [components, String.splitOn, if_neg (by decide)]
  exact h

end Path

private theorem textOf_toUTF8 (text : String) : textOf text.toUTF8 = .ok text := by
  have h : String.fromUTF8? text.toUTF8 = some text := dif_pos text.isValidUTF8
  rw [textOf, h]

namespace Files

/-- A component names something in the directory it is followed from. -/
structure IsName (component : String) : Prop where
  /-- It leads somewhere else. -/
  not_idle : Path.isIdle component = false
  /-- It does not lead up. -/
  ne_up : component ≠ ".."
  /-- It is not too long. -/
  size_le : component.utf8ByteSize ≤ Path.longestName

instance : DecidablePred IsName := fun component =>
  decidable_of_iff
    (Path.isIdle component = false ∧ component ≠ ".." ∧
      component.utf8ByteSize ≤ Path.longestName)
    ⟨fun h => ⟨h.1, h.2.1, h.2.2⟩, fun h => ⟨h.not_idle, h.ne_up, h.size_le⟩⟩

/-- All that was there is there still, and no directory has become a file. -/
structure Grown (files made : Files) : Prop where
  /-- What was there is there. -/
  isSome : ∀ place, (files.node? place).isSome = true → (made.node? place).isSome = true
  /-- A directory is one still. -/
  isDirectory : ∀ place, files.isDirectory place = true → made.isDirectory place = true

variable {files made written : Files} {here there place : Place} {component name path : String}
  {components : List String} {node : FileNode} {bytes : ByteArray} {text : String}

private theorem isDirectory_iff :
    files.isDirectory place = true ↔ files.node? place = some .directory := by
  unfold isDirectory
  split <;> simp_all

/-! ### Putting something under a name -/

@[simp]
theorem node?_put_self (files : Files) (here : Place) (name : String) (node : FileNode) :
    (files.put (here.down name) node).node? (here.down name) = some node := by
  simp [node?, put, Place.down]

private theorem node?_put_of_ne (h : there ≠ place) :
    (files.put place node).node? there = files.node? there := by
  have hbeq : (place == there) = false := beq_eq_false_iff_ne.mpr h.symm
  simp only [node?, put, Std.HashMap.getElem?_insert, hbeq, Bool.false_eq_true, if_false]

private theorem Grown.refl (files : Files) : Grown files files := ⟨fun _ h => h, fun _ h => h⟩

private theorem Grown.trans (h₁ : Grown files made) (h₂ : Grown made written) :
    Grown files written :=
  ⟨fun place h => h₂.isSome place (h₁.isSome place h),
    fun place h => h₂.isDirectory place (h₁.isDirectory place h)⟩

/-- Whatever is put under a name, all that was there stays if it does not replace a directory by a
file. -/
private theorem grown_put (h : files.isDirectory (here.down name) = true → node = .directory) :
    Grown files (files.put (here.down name) node) := by
  constructor
  · intro place hplace
    rcases eq_or_ne place (here.down name) with rfl | hne
    · rw [node?_put_self, Option.isSome_some]
    · rwa [node?_put_of_ne hne]
  · intro place hplace
    rcases eq_or_ne place (here.down name) with rfl | hne
    · rw [isDirectory_iff, node?_put_self, h hplace]
    · rw [isDirectory_iff] at hplace ⊢
      rwa [node?_put_of_ne hne]

/-! ### Following a component -/

private theorem isDirectory_of_step (h : files.step here component = .ok there) :
    files.isDirectory here = true := by
  by_contra hdir
  rw [Bool.not_eq_true] at hdir
  simp [step, hdir] at h

/-- A name is followed to what stands under it. -/
private theorem step_of_isName (hdir : files.isDirectory here = true) (hname : IsName name) :
    files.step here name =
      if (files.node? (here.down name)).isSome then .ok (here.down name) else .error .missing := by
  simp only [step, hdir, hname.not_idle, hname.ne_up, Nat.not_lt.mpr hname.size_le, Bool.not_true,
    Bool.false_eq_true, if_false]
  cases files.node? (here.down name) <;> rfl

/-- What is followed and leads neither up nor nowhere is a name. -/
private theorem isName_of_step (hidle : Path.isIdle name = false) (hup : name ≠ "..")
    (h : files.step here name = .ok there) : IsName name ∧ there = here.down name := by
  have hdir := isDirectory_of_step h
  simp only [step, hdir, hidle, hup, Bool.not_true, Bool.false_eq_true, if_false] at h
  split at h
  next => cases h
  next hsize =>
    refine ⟨⟨hidle, hup, Nat.not_lt.mp hsize⟩, ?_⟩
    split at h <;> cases h
    rfl

/-- Nothing is missing but what a name would stand for. -/
private theorem step_eq_missing_iff :
    files.step here component = .error .missing ↔
      files.isDirectory here = true ∧ IsName component ∧
        files.node? (here.down component) = none := by
  constructor
  · intro h
    unfold step at h
    split_ifs at h with hdir hidle hup hsize <;> try cases h
    -- only what a name stands for can be missing
    split at h
    next hnone =>
      exact ⟨by simpa using hdir, ⟨by simpa using hidle, hup, Nat.not_lt.mp hsize⟩, hnone⟩
    next => cases h
  · rintro ⟨hdir, hname, hnone⟩
    rw [step_of_isName hdir hname, hnone]
    rfl

/-- What was put under a name is followed by that name. -/
private theorem Grown.step_put_self (hg : Grown files (files.put (here.down name) node))
    (hdir : files.isDirectory here = true) (hname : IsName name) :
    (files.put (here.down name) node).step here name = .ok (here.down name) := by
  rw [step_of_isName (hg.isDirectory here hdir) hname, node?_put_self]
  rfl

private theorem Grown.step (hg : Grown files made) (h : files.step here component = .ok there) :
    made.step here component = .ok there := by
  have hdir := isDirectory_of_step h
  unfold Files.step at h ⊢
  simp only [hdir, hg.isDirectory here hdir] at h ⊢
  split_ifs at h ⊢ <;> try exact h
  -- what is left is a name, and what it stands for is there still
  cases hnode : files.node? (here.down component) with
  | none => simp [hnode] at h
  | some node =>
    obtain ⟨node', hnode'⟩ :=
      Option.isSome_iff_exists.mp (hg.isSome (here.down component) (by simp [hnode]))
    simpa [hnode, hnode'] using h

private theorem Grown.follow (hg : Grown files made) :
    ∀ {components : List String} {here : Place},
      components.foldlM files.step here = .ok there → components.foldlM made.step here = .ok there
  | [], _, h => h
  | component :: components, here, h => by
    rw [List.foldlM_cons] at h ⊢
    cases hstep : files.step here component with
    | error e => simp [hstep, bind, Except.bind] at h
    | ok next =>
      rw [hstep] at h
      rw [hg.step hstep]
      exact hg.follow h

/-! ### Writing -/

/-- Where reaching a directory leads, and what it leaves. -/
structure Reached (files : Files) (here : Place) (components : List String) (there : Place)
    (made : Files) : Prop where
  /-- All that was there is there still. -/
  grown : Grown files made
  /-- The components lead there. -/
  follow : components.foldlM made.step here = .ok there
  /-- It is a directory. -/
  isDirectory : made.isDirectory there = true

/-- One component more leads there if it leads, in files that have grown, to where the others
begin. -/
private theorem Reached.cons {grown : Files} {next : Place} (hg : Grown files grown)
    (hstep : grown.step here component = .ok next)
    (hrest : Reached grown next components there made) :
    Reached files here (component :: components) there made := by
  refine ⟨hg.trans hrest.grown, ?_, hrest.isDirectory⟩
  rw [List.foldlM_cons, hrest.grown.step hstep]
  exact hrest.follow

private theorem reached_of_reach (h : files.reach here components = (.ok there, made)) :
    Reached files here components there made := by
  induction components generalizing files here with
  | nil =>
    obtain ⟨hthere, rfl⟩ := Prod.mk.inj h
    split at hthere
    next hdir =>
      cases hthere
      exact ⟨.refl files, rfl, hdir⟩
    next => cases hthere
  | cons component components ih =>
    rw [reach] at h
    split at h
    next next hstep => exact .cons (.refl files) hstep (ih h)
    next hstep =>
      -- a directory is made where nothing was, and is found there
      obtain ⟨hdir, hname, -⟩ := step_eq_missing_iff.mp hstep
      have hput : Grown files (files.put (here.down component) .directory) :=
        grown_put fun _ => rfl
      exact .cons hput (hput.step_put_self hdir hname) (ih h)
    next => cases congrArg Prod.fst h

/-- There is room for a file only under a name, and not in the place of a directory. -/
private theorem isName_of_room (h : files.room here name = .ok place) :
    IsName name ∧ place = here.down name ∧ files.isDirectory place = false := by
  unfold room at h
  split at h
  next => cases h
  next hnot =>
    obtain ⟨hidle, hup⟩ := Bool.or_eq_false_iff.mp (Bool.not_eq_true _ ▸ hnot)
    split at h
    next next hstep =>
      obtain ⟨hname, hnext⟩ := isName_of_step hidle (beq_eq_false_iff_ne.mp hup) hstep
      split at h
      next => cases h
      next hfile =>
        cases h
        exact ⟨hname, hnext, Bool.not_eq_true _ ▸ hfile⟩
    next hstep =>
      obtain ⟨-, hname, hnone⟩ := step_eq_missing_iff.mp hstep
      cases h
      refine ⟨hname, rfl, ?_⟩
      rw [isDirectory, hnone]
    next => cases h

/-- A path leads to a name in a directory, and a file can be written there without replacing a
directory. -/
structure Written (files : Files) (path : String) (components : List String) (name : String)
    (here : Place) (made : Files) : Prop where
  /-- The name stands behind the other components. -/
  components_eq : Files.components path = .ok (components ++ [name])
  /-- The other components lead to the directory. -/
  reached : Reached files (.start path) components here made
  /-- The file has a name. -/
  isName : IsName name
  /-- There was no directory of that name. -/
  not_isDirectory : made.isDirectory (here.down name) = false

private theorem exists_written (h : files.writeBytes path bytes = (.ok (), written)) :
    ∃ components name here made, Written files path components name here made ∧
      written = made.put (here.down name) (.regular bytes) := by
  unfold writeBytes at h
  split at h
  next => cases congrArg Prod.fst h
  next components hcomponents =>
    split at h
    next => cases congrArg Prod.fst h
    next here made hreach =>
      split at h
      next => cases congrArg Prod.fst h
      next place hroom =>
        obtain ⟨-, rfl⟩ := Prod.mk.inj h
        obtain ⟨hname, rfl, hfile⟩ := isName_of_room hroom
        rcases List.eq_nil_or_concat' components with rfl | ⟨front, name, rfl⟩
        · -- the name would be empty
          exact absurd hname.not_idle (by decide)
        · simp only [List.getLastD_concat, List.dropLast_concat] at hreach hname hfile ⊢
          exact ⟨front, name, here, made, ⟨hcomponents, reached_of_reach hreach, hname, hfile⟩, rfl⟩

/-! ### Reading again -/

/-- The components that led to where a file was written lead to it. -/
private theorem Written.find (h : Written files path components name here made) :
    (made.put (here.down name) (.regular bytes)).find path = .ok (here.down name) := by
  have hput : Grown made (made.put (here.down name) (.regular bytes)) :=
    grown_put fun hdir => absurd hdir (by simp [h.not_isDirectory])
  have hlast := hput.step_put_self h.reached.isDirectory h.isName
  have hfollow := hput.follow h.reached.follow
  rw [Files.find, h.components_eq]
  simp only [bind, Except.bind, List.foldlM_append, List.foldlM_cons, List.foldlM_nil, hfollow,
    hlast]
  rfl

/-- The bytes that were written are the bytes that are read. -/
private theorem readBytes_of_writeBytes (h : files.writeBytes path bytes = (.ok (), written)) :
    written.readBytes path = .ok bytes := by
  obtain ⟨components, name, here, made, hw, rfl⟩ := exists_written h
  simp only [readBytes, hw.find, bind, Except.bind, node?_put_self]

/-- **The text that was written is the text that is read.** -/
theorem read_of_write (h : files.write path text = (.ok (), written)) :
    written.read path = .ok text := by
  simp only [read, readBytes_of_writeBytes h, bind, Except.bind, textOf_toUTF8]

/-! ### Files in which nothing is in the way -/

/-- Nothing stands below a directory. -/
structure Bare (files : Files) (here : Place) : Prop where
  /-- It is a directory. -/
  isDirectory : files.isDirectory here = true
  /-- There is nothing in it, and nothing in that. -/
  node?_eq_none : ∀ names, names ≠ [] → files.node? ⟨here.anchor, names ++ here.names⟩ = none

private theorem bare_empty (path : String) : Bare empty (.start path) := by
  refine ⟨rfl, fun names hne => ?_⟩
  simp [node?, empty, Place.start, hne]

private theorem Bare.node?_down (h : Bare files here) : files.node? (here.down name) = none :=
  h.node?_eq_none [name] (List.cons_ne_nil _ _)

private theorem Bare.put (h : Bare files here) :
    Bare (files.put (here.down name) .directory) (here.down name) := by
  refine ⟨isDirectory_iff.mpr (node?_put_self ..), fun names hne => ?_⟩
  have hlonger : (⟨(here.down name).anchor, names ++ (here.down name).names⟩ : Place) ≠
      here.down name := by
    intro heq
    exact hne (List.append_left_eq_self.mp (congrArg Place.names heq))
  rw [node?_put_of_ne hlonger]
  simpa [Place.down] using h.node?_eq_none (names ++ [name]) (by simp)

private theorem Bare.reach (h : Bare files here) (hnames : ∀ name ∈ components, IsName name) :
    ∃ there made, files.reach here components = (.ok there, made) ∧ Bare made there := by
  induction components generalizing files here with
  | nil => exact ⟨here, files, by rw [Files.reach, if_pos h.isDirectory], h⟩
  | cons name components ih =>
    have hmissing : files.step here name = .error .missing :=
      step_eq_missing_iff.mpr ⟨h.isDirectory, hnames name List.mem_cons_self, h.node?_down⟩
    rw [Files.reach, hmissing]
    exact ih h.put fun name' hname' => hnames name' (List.mem_cons_of_mem name hname')

/-- Where nothing is in the way, a file can be written under every path that is made of names. -/
theorem exists_write_empty (hcomponents : Files.components path = .ok (components ++ [name]))
    (hnames : ∀ c ∈ components ++ [name], IsName c) (text : String) :
    ∃ written, empty.write path text = (.ok (), written) := by
  obtain ⟨here, made, hreach, hbare⟩ :=
    (bare_empty path).reach fun c hc => hnames c (List.mem_append_left _ hc)
  have hname : IsName name := hnames name (by simp)
  have hmissing : made.step here name = .error .missing :=
    step_eq_missing_iff.mpr ⟨hbare.isDirectory, hname, hbare.node?_down⟩
  have hroom : made.room here name = .ok (here.down name) := by
    simp [room, hname.not_idle, hname.ne_up, hmissing]
  refine ⟨made.put (here.down name) (.regular text.toUTF8), ?_⟩
  simp only [write, writeBytes, hcomponents, List.dropLast_concat, List.getLastD_concat, hreach,
    hroom]

end Files

end UndoJournal
