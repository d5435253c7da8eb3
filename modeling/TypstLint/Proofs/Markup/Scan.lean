import TypstLint.Proofs.Markup.Targets

set_option autoImplicit false

/-! # A scan as the sequence of its steps

Every step leaves less to do, so the bound on the number of steps never ends a scan. `scanRest` is the
scan without this bound: at the end of the text it finds nothing, and before it finds what the next
step finds and then what the scan finds from there on. -/

namespace TypstLint.Markup

variable {s s' : State} {found : List Finding} {c : Char} {rest : List Char}

/-! ## Steps lead on -/

/-- How much there is left to do: two steps for each character, as it may open a frame that has to be
left again, and one for each frame. -/
def State.work (s : State) : Nat := 2 * s.cursor.rest.length + s.frames.length

theorem StepsTo.work_lt (hrest : s.cursor.rest = c :: rest)
    (h : StepsTo c s s' found) : s'.work < s.work := by
  have hlength : s.cursor.rest.length = rest.length + 1 := by rw [hrest, List.length_cons]
  unfold State.work
  cases h with
  | move n hn =>
    simp only [cursor_advance, Cursor.rest_advance, List.length_drop, frames_advance]
    omega
  | region kind region hkind hread =>
    have hpos := (Region.read_length hkind hread).1
    simp only [cursor_advance, Cursor.rest_advance, List.length_drop, frames_advance]
    omega
  | leave hne =>
    have hframes := List.length_pos_iff.mpr hne
    simp only [cursor_pop, frames_pop, List.length_tail]
    omega
  | close hne =>
    simp only [cursor_advance, cursor_pop, Cursor.rest_advance, List.length_drop, frames_advance,
      frames_pop, List.length_tail]
    omega
  | enter frame =>
    simp only [cursor_advance, cursor_push, Cursor.rest_advance, List.length_drop, frames_advance,
      frames_push, List.length_cons]
    omega
  | parens frame outer parens hframes =>
    simp only [cursor_advance, cursor_replace, Cursor.rest_advance, List.length_drop, frames_advance,
      frames_replace, List.length_cons, List.length_tail, hframes]
    omega
  | word frame outer _ _ hframes hident hword =>
    -- the word has at least one character, and what is read behind it does not go back
    have hmoves := (wordStep_finds hword).moves
    have hword' := List.length_pos_iff.mpr (hrest ▸ identOf_ne_nil hident)
    have hrest' := hmoves.length_rest_add
    have hle := hmoves.pos_le
    rw [(wordStep_cases hword).1]
    rw [Cursor.rest_advance, List.length_drop] at hrest'
    rw [Cursor.pos_advance] at hrest' hle
    omega

theorem work_lt_of_step {new : List Finding} (hrest : s.cursor.rest = c :: rest)
    (h : s.step c = .ok (s', new)) : s'.work < s.work :=
  (stepsTo_of_step h).work_lt hrest

/-- What holds at the end of the text, and before a step if it holds behind it, holds everywhere. -/
theorem State.induction {p : State → Prop} (atEnd : ∀ s : State, s.cursor.rest = [] → p s)
    (step : ∀ (s : State) (c : Char) (rest : List Char), s.cursor.rest = c :: rest →
      (∀ s' new, s.step c = .ok (s', new) → p s') → p s) (s : State) : p s := by
  induction hwork : s.work using Nat.strongRecOn generalizing s with
  | ind work ih =>
    cases hrest : s.cursor.rest with
    | nil => exact atEnd s hrest
    | cons c rest =>
      refine step s c rest hrest fun s' new hstep => ?_
      exact ih s'.work (hwork ▸ work_lt_of_step hrest hstep) s' rfl

/-! ## The bound on the steps -/

theorem scanFrom_of_nil (fuel : Nat) (found : List Finding) (h : s.cursor.rest = []) :
    scanFrom fuel found s = .ok (s, found) := by
  cases fuel with
  | zero => rfl
  | succ fuel => simp [scanFrom, h]

theorem scanFrom_of_cons (fuel : Nat) (found : List Finding) (h : s.cursor.rest = c :: rest) :
    scanFrom (fuel + 1) found s
      = (s.step c).bind fun (s', new) => scanFrom fuel (new.reverse ++ found) s' := by
  simp only [scanFrom, h]
  cases s.step c with
  | error fault => rfl
  | ok result => rfl

/-- The findings so far stay below the later ones. -/
theorem scanFrom_found (fuel : Nat) (found : List Finding) (s : State) :
    scanFrom fuel found s = (scanFrom fuel [] s).map fun (s', new) => (s', new ++ found) := by
  induction fuel generalizing found s with
  | zero => rfl
  | succ fuel ih =>
    cases hrest : s.cursor.rest with
    | nil => simp [scanFrom_of_nil _ _ hrest, Except.map]
    | cons c rest =>
      rw [scanFrom_of_cons _ _ hrest, scanFrom_of_cons _ _ hrest]
      cases s.step c with
      | error fault => rfl
      | ok result =>
        show scanFrom fuel (result.2.reverse ++ found) result.1
          = (scanFrom fuel (result.2.reverse ++ []) result.1).map _
        rw [ih (result.2.reverse ++ found), ih (result.2.reverse ++ [])]
        cases scanFrom fuel [] result.1 with
        | error fault => rfl
        | ok last => simp [Except.map]

/-- More fuel than there is work changes nothing. -/
theorem scanFrom_fuel (fuel fuel' : Nat) (found : List Finding) (h : s.work < fuel)
    (h' : s.work < fuel') : scanFrom fuel found s = scanFrom fuel' found s := by
  induction fuel generalizing fuel' found s with
  | zero => cases h
  | succ fuel ih =>
    cases fuel' with
    | zero => cases h'
    | succ fuel' =>
      cases hrest : s.cursor.rest with
      | nil => rw [scanFrom_of_nil _ _ hrest, scanFrom_of_nil _ _ hrest]
      | cons c rest =>
        rw [scanFrom_of_cons _ _ hrest, scanFrom_of_cons _ _ hrest]
        cases hstep : s.step c with
        | error fault => rfl
        | ok result =>
          have hlt := work_lt_of_step hrest hstep
          exact ih fuel' _ (by omega) (by omega)

/-! ## The scan without the bound -/

/-- The scan from a place on: where it ends, and what it finds, in the order of the text. -/
def scanRest (s : State) : Outcome :=
  (scanFrom (s.work + 1) [] s).map fun (s', found) => (s', found.reverse)

theorem scanRest_of_nil (h : s.cursor.rest = []) : scanRest s = .ok (s, []) := by
  rw [scanRest, scanFrom_of_nil _ _ h]
  rfl

/-- What a scan finds is what the next step finds, and what is found from there on. -/
theorem scanRest_of_cons (h : s.cursor.rest = c :: rest) :
    scanRest s = (s.step c).bind fun (s', new) =>
      (scanRest s').map fun (s'', found) => (s'', new ++ found) := by
  rw [scanRest, scanFrom_of_cons _ _ h]
  cases hstep : s.step c with
  | error fault => rfl
  | ok result =>
    have hlt := work_lt_of_step h hstep
    show (scanFrom s.work (result.2.reverse ++ []) result.1).map _ = (scanRest result.1).map _
    rw [scanFrom_found, scanFrom_fuel s.work (result.1.work + 1) [] hlt (Nat.lt_succ_self _), scanRest]
    cases scanFrom (result.1.work + 1) [] result.1 with
    | error fault => rfl
    | ok last => simp [Except.map]

theorem scanRest_moves {found : List Finding} (h : scanRest s = .ok (s', found)) :
    s.cursor.Moves s'.cursor := by
  obtain ⟨⟨s', found⟩, hscan, hresult⟩ := map_eq_ok.mp h
  obtain ⟨rfl, -⟩ := Prod.mk.inj hresult
  have hstart : Finds s.cursor s.cursor [] := .of_moves (.refl _) rfl
  exact (scanFrom_finds hstart hscan).moves

/-- A scan of a text is the scan from its start, and then the frames that are still open. -/
theorem scan_eq_scanRest (text : List Char) :
    scan text = (scanRest ⟨.ofText text, []⟩).map fun (s, found) =>
      .ofFindings (found ++ (s.frames.reverse.flatMap Frame.issues).map .issue) := by
  show (scanFrom (2 * text.length + 1) [] ⟨.ofText text, []⟩ >>= _) = _
  rw [scanRest]
  show _ = ((scanFrom (2 * text.length + 0 + 1) [] ⟨.ofText text, []⟩).map _).map _
  rw [Nat.add_zero]
  cases scanFrom (2 * text.length + 1) [] ⟨.ofText text, []⟩ with
  | error fault => rfl
  | ok result => rfl

/-! ## Where directives come from -/

variable {d : Directive}

/-- A step that finds a directive has read it. -/
theorem exists_readDirective_of_step (h : s.step c = .ok (s', found))
    (hd : d ∈ found.filterMap Finding.directive?) :
    ∃ kind start cur cur' found', readDirective kind start cur = .ok (cur', found')
      ∧ d ∈ found'.filterMap Finding.directive? := by
  cases stepsTo_of_step h with
  | move | leave | close | enter | parens => cases hd
  | region =>
    rw [filterMap_directive?_issues] at hd
    cases hd
  | word frame outer _ _ _ _ hword =>
    rcases (wordStep_cases hword).2 with ⟨-, rfl⟩ | ⟨kind, hread, -⟩ | hread
    · cases hd
    · exact ⟨kind, _, _, _, found, hread, hd⟩
    · rw [(readBinding_moves hread).2] at hd
      cases hd

theorem exists_readDirective_of_scanRest (h : scanRest s = .ok (s', found))
    (hd : d ∈ found.filterMap Finding.directive?) :
    ∃ kind start cur cur' found', readDirective kind start cur = .ok (cur', found')
      ∧ d ∈ found'.filterMap Finding.directive? := by
  induction s using State.induction generalizing found with
  | atEnd s hrest =>
    rw [scanRest_of_nil hrest] at h
    obtain ⟨rfl, rfl⟩ := Prod.mk.inj (Except.ok.inj h)
    cases hd
  | step s c rest hrest ih =>
    rw [scanRest_of_cons hrest] at h
    obtain ⟨⟨next, new⟩, hstep, h⟩ := bind_eq_ok.mp h
    obtain ⟨⟨last, later⟩, hlater, h⟩ := map_eq_ok.mp h
    obtain ⟨rfl, rfl⟩ := Prod.mk.inj h
    rw [List.filterMap_append] at hd
    rcases List.mem_append.mp hd with hd | hd
    · exact exists_readDirective_of_step hstep hd
    · exact ih next new hstep hlater hd

/-- Every directive of a text was read. -/
theorem exists_readDirective_of_scan {text : List Char} {outline : Outline} (h : scan text = .ok outline)
    (hd : d ∈ outline.directives) :
    ∃ kind start cur cur' found, readDirective kind start cur = .ok (cur', found)
      ∧ d ∈ found.filterMap Finding.directive? := by
  rw [scan_eq_scanRest] at h
  obtain ⟨⟨last, found⟩, hscan, rfl⟩ := map_eq_ok.mp h
  replace hd : d ∈ (found ++ _).filterMap Finding.directive? := hd
  rw [List.filterMap_append, filterMap_directive?_issues, List.append_nil] at hd
  exact exists_readDirective_of_scanRest hscan hd

end TypstLint.Markup
