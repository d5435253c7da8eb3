import TypstLint.Proofs.Markup.Runs

set_option autoImplicit false

/-! # The stack of a scan

A scan stands in layers: in the text of the file, and in the frames that it has entered. The innermost layer
makes the next step. It can enter a layer that may stand on it, open or close one of its own parentheses, or
leave the stack, and it takes no other layer with it; the text of the file does not leave
(`Layer.changes_of_step`). So the stack is well formed at every step, there is always an innermost layer,
and as every step takes something from the sum of two for each character that is left and one for each
layer, every scan comes to the end of the text or to an escape that is too large (`scan_stack`). -/

namespace TypstLint

/-! ## Failures -/

/-- Whether a computation fails only because of an escape that is too large. -/
def FailsAtEscape {α : Type} (x : Except Fault α) : Prop :=
  ∀ fault, x = .error fault → fault = .escapeTooLarge

namespace FailsAtEscape

variable {α β : Type} {x y : Except Fault α}

theorem escape : FailsAtEscape (.error .escapeTooLarge : Except Fault α) :=
  fun _ h => (Except.error.inj h).symm

theorem ok (a : α) : FailsAtEscape (.ok a) := nofun

theorem of_eq_error {fault : Fault} (h : FailsAtEscape x) (heq : x = .error fault) :
    FailsAtEscape (.error fault : Except Fault β) := by
  intro fault' herror
  rw [← Except.error.inj herror]
  exact h fault heq

theorem map {f : α → β} (h : FailsAtEscape x) : FailsAtEscape (x.map f) :=
  fun fault herror => h fault (map_eq_error.mp herror)

theorem bind {f : α → Except Fault β} (h : FailsAtEscape x) (hf : ∀ a, FailsAtEscape (f a)) :
    FailsAtEscape (x >>= f) := by
  intro fault herror
  rcases bind_eq_error.mp herror with hx | ⟨a, -, hfa⟩
  · exact h fault hx
  · exact hf a fault hfa

theorem ite {p : Prop} [Decidable p] (hthen : FailsAtEscape x) (helse : FailsAtEscape y) :
    FailsAtEscape (if p then x else y) := by
  split
  · exact hthen
  · exact helse

end FailsAtEscape

namespace Markup

variable {s s' : State} {frame : Frame} {c : Char} {found : List Finding}

theorem failsAtEscape_decodeEscape (cs : List Char) : FailsAtEscape (decodeEscape cs) := by
  have hchar : ∀ n, FailsAtEscape (charOfNumber n) := fun n =>
    .ite .escape (.ite (.ok _) (.ite (.ok _) (.ok _)))
  unfold decodeEscape
  dsimp only
  split
  · exact .ok _
  · split
    · exact .ok _
    · split
      · exact .ok _
      · exact (hchar _).map

theorem failsAtEscape_readLiteralFrom (skip length : Nat) (done : List Char) (cs : List Char) :
    FailsAtEscape (readLiteralFrom skip length done cs) := by
  induction cs generalizing skip length done with
  | nil => exact .ok _
  | cons c rest ih =>
    cases skip with
    | succ skip => exact ih _ _ _
    | zero =>
      unfold readLiteralFrom
      refine .ite ?_ (.ite (.ok _) (ih _ _ _))
      split
      · next hescape => exact .of_eq_error (failsAtEscape_decodeEscape rest) hescape
      · exact ih _ _ _

theorem failsAtEscape_read (kind : RegionKind) (cs : List Char) : FailsAtEscape (Region.read kind cs) := by
  cases kind with
  | lineComment | blockComment | raw => exact .ok _
  | string => exact (failsAtEscape_readLiteralFrom _ _ _ _).map

theorem failsAtEscape_findClose (pos skip depth : Nat) (cs : List Char) :
    FailsAtEscape (findClose pos skip depth cs) := by
  induction cs generalizing pos skip depth with
  | nil => exact .ok _
  | cons c rest ih =>
    unfold findClose
    split
    · exact ih _ _ _
    · split
      · split
        · next hread => exact .of_eq_error (failsAtEscape_read _ _) hread
        · exact .ite (.ok _) (ih _ _ _)
      · exact .ite (ih _ _ _) (.ite (.ite (.ok _) (ih _ _ _)) (ih _ _ _))

theorem failsAtEscape_groupRead (cur : Cursor) : FailsAtEscape (Group.read cur) :=
  (failsAtEscape_findClose _ _ _ _).map

theorem failsAtEscape_splitSegments (left pos skip : Nat) (depth : Int) (segments : Segments)
    (cs : List Char) : FailsAtEscape (splitSegments left pos skip depth segments cs) := by
  induction cs generalizing left pos skip depth segments with
  | nil => unfold splitSegments; exact .ok _
  | cons c rest ih =>
    cases left with
    | zero => unfold splitSegments; exact .ok _
    | succ left =>
      cases skip with
      | succ skip => exact ih _ _ _ _ _
      | zero =>
        unfold splitSegments
        refine .ite ?_ (.ite (ih _ _ _ _ _) (ih _ _ _ _ _))
        split
        · next hread => exact .of_eq_error (failsAtEscape_read _ _) hread
        · exact .ite (.ok _) (ih _ _ _ _ _)

theorem failsAtEscape_readClauses (kind : DirectiveKind) (cur : Cursor) :
    FailsAtEscape (kind.readClauses cur) := by
  have hitems : ∀ clauses cur, FailsAtEscape (readItems clauses cur) := fun _ _ =>
    .ite (.ok _) (.ite (failsAtEscape_groupRead _).map (.ok _))
  cases kind with
  | importing => exact .ite (hitems _ _) (.ok _)
  | including => exact .ok _

theorem failsAtEscape_readDirective (kind : DirectiveKind) (start : Nat) (cur : Cursor) :
    FailsAtEscape (readDirective kind start cur) := by
  unfold readDirective
  refine .ite (.ok _) (.bind (failsAtEscape_readLiteralFrom _ _ _ _) fun literal => ?_)
  dsimp only
  split
  · exact .ok _
  · exact .bind (failsAtEscape_readClauses _ _) fun _ => .ok _

theorem failsAtEscape_readBinding (topLevel : Bool) (cur : Cursor) :
    FailsAtEscape (readBinding topLevel cur) := by
  unfold readBinding
  refine .ite (.ok _) (.ite (.ok _) (.bind (failsAtEscape_groupRead _) fun group => ?_))
  exact .ite (.ok _) (.bind (failsAtEscape_splitSegments _ _ _ _ _ _) fun _ => .ok _)

theorem failsAtEscape_wordStep (frame : Frame) (s : State) : FailsAtEscape (wordStep frame s) := by
  refine .map (.ite (.ok _) ?_)
  split
  · exact failsAtEscape_readDirective _ _ _
  · exact .ite (failsAtEscape_readBinding _ _) (.ok _)

theorem failsAtEscape_textStep (inMath inContent : Bool) (c : Char) (s : State) :
    FailsAtEscape (textStep inMath inContent c s) := by
  unfold textStep
  split
  · exact (failsAtEscape_read _ _).map
  · exact .ite (.ok _) (.ite (.ok _) (.ite (.ok _) (.ite (.ok _) (.ok _))))

theorem failsAtEscape_codeStep (frame : Frame) (c : Char) (s : State) :
    FailsAtEscape (codeStep frame c s) := by
  unfold codeStep
  dsimp only
  split
  · exact (failsAtEscape_read _ _).map
  · refine .ite (.ok _) (.ite (.ok _) (.ite (.ok _) (.ite ?_ (.ite (.ok _) (.ite (.ok _) (.ite (.ok _)
      (.ite (failsAtEscape_wordStep _ _) (.ite (.ok _) (.ok _)))))))))
    split
    · exact .ok _
    · exact .ok _

theorem failsAtEscape_step (c : Char) (s : State) : FailsAtEscape (s.step c) := by
  unfold State.step
  split
  · exact failsAtEscape_textStep _ _ _ _
  · exact failsAtEscape_textStep _ _ _ _
  · exact failsAtEscape_textStep _ _ _ _
  · exact failsAtEscape_codeStep _ _ _

/-! ## Layers -/

/-- What a scan stands in: the text of the file, or a frame that it has entered. -/
inductive Layer where
  | file
  | entered (frame : Frame)

/-- The ways to read a text. -/
inductive Mode where
  | text
  | math
  | embedded
  | code
  deriving DecidableEq, Repr

namespace Layer

/-- How the text in a layer is read. -/
def mode : Layer → Mode
  | file | entered (.content _) => .text
  | entered (.math _) => .math
  | entered (.embed ..) => .embedded
  | entered (.code ..) => .code

/-- What a layer can stand on. An equation stands in text, code behind a `#` in text or in an equation, and
blocks of code and of text stand in code. The text of the file stands on nothing. -/
def StandsOn : Layer → Layer → Prop
  | file, _ => False
  | entered (.math _), lower => lower.mode = .text
  | entered (.embed ..), lower => lower.mode = .text ∨ lower.mode = .math
  | entered (.content _), lower | entered (.code ..), lower => lower.mode = .embedded ∨ lower.mode = .code

/-- The step that a layer makes. -/
def step : Layer → Char → State → Outcome
  | file => textStep false false
  | entered (.content _) => textStep false true
  | entered (.math _) => textStep true false
  | entered frame => codeStep frame

/-- What a layer does to the frames, of which it is the innermost one unless it is the text of the file. -/
inductive Changes (layer : Layer) (s s' : State) : Prop
  | stay (hframes : s'.frames = s.frames)
  | enter (inner : Frame) (hframes : s'.frames = inner :: s.frames) (hparens : inner.parens = [])
      (hstands : (entered inner).StandsOn layer)
  | leave (hlayer : layer ≠ .file) (hframes : s'.frames = s.frames.tail)
  | openParen (frame : Frame) (hlayer : layer = .entered frame)
      (hframes : s'.frames = frame.withParens (s.cursor.pos :: frame.parens) :: s.frames.tail)
      (hpos : s.cursor.pos < s'.cursor.pos)
  | closeParen (frame : Frame) (opener : Nat) (outer : List Nat) (hlayer : layer = .entered frame)
      (hparens : frame.parens = opener :: outer)
      (hframes : s'.frames = frame.withParens outer :: s.frames.tail)

end Layer

/-! ## Steps of a layer -/

/-- Whether a step, if it returns, leads to a state with a property. -/
def LeadsTo (q : State → Prop) (x : Outcome) : Prop := ∀ s found, x = .ok (s, found) → q s

namespace LeadsTo

variable {q : State → Prop} {x y : Outcome}

theorem plain (h : q s) : LeadsTo q (plain s) := by
  intro s' found heq
  obtain ⟨rfl, -⟩ := Prod.mk.inj (Except.ok.inj heq)
  exact h

theorem ite {p : Prop} [Decidable p] (hthen : p → LeadsTo q x) (helse : LeadsTo q y) :
    LeadsTo q (if p then x else y) := by
  split
  · next h => exact hthen h
  · exact helse

end LeadsTo

namespace Layer

variable {layer : Layer}

theorem leadsTo_readRegion (kind : RegionKind) : LeadsTo (layer.Changes s) (readRegion kind s) := by
  intro s' found h
  obtain ⟨region, -, heq⟩ := map_eq_ok.mp h
  obtain ⟨rfl, -⟩ := Prod.mk.inj heq
  exact .stay rfl

theorem changes_enterCode (h : layer.mode = .text ∨ layer.mode = .math) :
    layer.Changes s (enterCode s) := by
  unfold enterCode
  dsimp only
  split
  · exact .stay rfl
  · refine .enter _ rfl rfl ?_
    exact h

theorem leadsTo_textStep {inMath inContent : Bool} (hmode : layer.mode = if inMath then .math else .text)
    (hcontent : inContent = true → layer ≠ .file) :
    LeadsTo (layer.Changes s) (textStep inMath inContent c s) := by
  have htext : layer.mode = .text ∨ layer.mode = .math := by
    cases inMath with
    | true => exact .inr hmode
    | false => exact .inl hmode
  unfold textStep
  split
  · exact leadsTo_readRegion _
  · refine .ite (fun _ => .plain (.stay rfl)) (.ite (fun _ => .plain ?_) (.ite (fun hclose => .plain ?_)
      (.ite (fun _ => .plain (changes_enterCode htext)) (.plain (.stay rfl)))))
    · cases inMath with
      | true =>
        refine .leave (fun hfile => ?_) rfl
        rw [hfile] at hmode
        cases hmode
      | false =>
        refine .enter (.math s.cursor.pos) rfl rfl ?_
        exact hmode
    · exact .leave (hcontent ((Bool.and_eq_true _ _).mp hclose).2) rfl

theorem leadsTo_codeStep (hmode : (entered frame).mode = .embedded ∨ (entered frame).mode = .code)
    (hrest : s.cursor.rest ≠ []) : LeadsTo ((entered frame).Changes s) (codeStep frame c s) := by
  have hstay : (entered frame).Changes s (s.advance 1) := .stay rfl
  have hleave : (entered frame).Changes s s.pop := .leave nofun rfl
  have hclose : (entered frame).Changes s (s.pop.advance 1) := .leave nofun rfl
  have henter : ∀ inner, inner.parens = [] → (entered inner).StandsOn (entered frame) →
      (entered frame).Changes s ((s.push inner).advance 1) := fun inner => .enter inner rfl
  have hpos : s.cursor.pos < (Cursor.advance 1 s.cursor).pos := Cursor.pos_lt_advance Nat.one_pos hrest
  unfold codeStep
  dsimp only
  split
  · exact leadsTo_readRegion _
  · -- one case for each delimiter, then words, and last what ends an expression
    refine .ite (fun _ => .plain (.openParen frame rfl rfl hpos)) (.ite (fun _ => .plain ?_)
      (.ite (fun _ => .plain ?_) (.ite (fun _ => ?_) (.ite (fun _ => .plain ?_) (.ite (fun _ => .plain hleave)
      (.ite (fun _ => .plain hclose) (.ite (fun _ => ?_) (.ite (fun _ => .plain ?_) (.plain hstay)))))))))
    · exact henter (.content s.cursor.pos) rfl hmode
    · exact henter (.code s.cursor.pos []) rfl hmode
    · split
      · next hparens => exact .plain (.closeParen frame _ _ rfl hparens rfl)
      · split
        · exact .plain hleave
        · exact .plain hstay
    · split
      · exact hleave
      · exact hclose
    · intro s' found hword
      exact .stay (wordStep_cases hword).1
    · unfold expressionStep
      split
      · exact hstay
      · exact hleave

/-- A layer enters one that may stand on it, opens or closes a parenthesis of its own, or leaves, unless it is
the text of the file. It does so on top of whatever frames there are. -/
theorem changes_of_step (hrest : s.cursor.rest ≠ []) (h : layer.step c s = .ok (s', found)) :
    layer.Changes s s' := by
  cases layer with
  | file =>
    have hleads : LeadsTo (file.Changes s) (textStep false false c s) := leadsTo_textStep rfl nofun
    exact hleads s' found h
  | entered frame =>
    cases frame with
    | content opener =>
      have hleads : LeadsTo ((entered (.content opener)).Changes s) (textStep false true c s) :=
        leadsTo_textStep rfl nofun
      exact hleads s' found h
    | math opener =>
      have hleads : LeadsTo ((entered (.math opener)).Changes s) (textStep true false c s) :=
        leadsTo_textStep rfl nofun
      exact hleads s' found h
    | embed => exact leadsTo_codeStep (.inl rfl) hrest s' found h
    | code => exact leadsTo_codeStep (.inr rfl) hrest s' found h

/-- A layer takes nothing but itself from the frames, and the text of the file takes nothing at all. -/
theorem Changes.suffix (h : layer.Changes s s') :
    s.frames.tail <:+ s'.frames ∧ (layer = .file → s.frames <:+ s'.frames) := by
  cases h with
  | stay hframes =>
    rw [hframes]
    exact ⟨List.tail_suffix _, fun _ => List.suffix_refl _⟩
  | enter inner hframes =>
    rw [hframes]
    exact ⟨(List.tail_suffix _).trans (List.suffix_cons _ _), fun _ => List.suffix_cons _ _⟩
  | leave hlayer hframes =>
    rw [hframes]
    exact ⟨List.suffix_refl _, fun hfile => absurd hfile hlayer⟩
  | openParen frame hlayer hframes | closeParen frame _ _ hlayer _ hframes =>
    rw [hframes]
    exact ⟨List.suffix_cons _ _, fun hfile => by cases hlayer.symm.trans hfile⟩

end Layer

/-! ## Well-formed stacks -/

/-- The layers of a scan that stands in some frames, innermost first. -/
def layersOf (frames : List Frame) : List Layer := frames.map .entered ++ [.file]

/-- The innermost layer of a scan that stands in some frames. -/
def innermost : List Frame → Layer
  | [] => .file
  | frame :: _ => .entered frame

theorem head?_layersOf (frames : List Frame) : (layersOf frames).head? = some (innermost frames) := by
  cases frames <;> rfl

theorem layersOf_suffix {frames frames' : List Frame} (h : frames <:+ frames') :
    layersOf frames <:+ layersOf frames' := by
  obtain ⟨inner, rfl⟩ := h
  exact ⟨inner.map .entered, by simp [layersOf]⟩

theorem tail_layersOf_suffix {frames frames' : List Frame} (h : frames.tail <:+ frames') :
    (layersOf frames).tail <:+ layersOf frames' := by
  cases frames with
  | nil => exact List.nil_suffix
  | cons => exact layersOf_suffix h

/-- The innermost layer makes the step. -/
theorem State.step_eq (c : Char) (s : State) : s.step c = (innermost s.frames).step c s := by
  unfold step
  generalize s.frames = frames
  cases frames with
  | nil => rfl
  | cons frame outer => cases frame <;> rfl

theorem exists_outer {frames : List Frame} (h : innermost frames = .entered frame) :
    ∃ outer, frames = frame :: outer := by
  cases frames with
  | nil => cases h
  | cons frame' outer => exact ⟨outer, by rw [Layer.entered.inj h]⟩

theorem isChain_layersOf_cons {outer : List Frame} :
    (layersOf (frame :: outer)).IsChain Layer.StandsOn
      ↔ (Layer.entered frame).StandsOn (innermost outer) ∧ (layersOf outer).IsChain Layer.StandsOn := by
  cases outer with
  | nil => exact List.isChain_cons_cons
  | cons => exact List.isChain_cons_cons

/-- Parentheses do not matter for what stands on what. -/
theorem isChain_layersOf_withParens {outer : List Frame} (parens : List Nat)
    (h : (layersOf (frame :: outer)).IsChain Layer.StandsOn) :
    (layersOf (frame.withParens parens :: outer)).IsChain Layer.StandsOn := by
  rw [isChain_layersOf_cons] at h ⊢
  refine ⟨?_, h.2⟩
  cases frame <;> exact h.1

namespace Frame

/-- Whether the open parentheses of a frame were opened one behind the other, all before a position. -/
def OpensInOrder (pos : Nat) (frame : Frame) : Prop :=
  frame.parens.reverse.Pairwise (· < ·) ∧ ∀ p ∈ frame.parens, p < pos

namespace OpensInOrder

variable {pos pos' : Nat}

theorem mono (h : frame.OpensInOrder pos) (hle : pos ≤ pos') : frame.OpensInOrder pos' :=
  ⟨h.1, fun p hp => Nat.lt_of_lt_of_le (h.2 p hp) hle⟩

theorem of_parens_eq_nil (h : frame.parens = []) : frame.OpensInOrder pos := by
  rw [OpensInOrder, h]
  exact ⟨.nil, List.forall_mem_nil _⟩

theorem withParens {parens : List Nat} (hascending : parens.reverse.Pairwise (· < ·))
    (hbefore : ∀ p ∈ parens, p < pos) : (frame.withParens parens).OpensInOrder pos := by
  cases frame with
  | content | math => exact of_parens_eq_nil rfl
  | code | embed => exact ⟨hascending, hbefore⟩

theorem openParen (h : frame.OpensInOrder pos) (hlt : pos < pos') :
    (frame.withParens (pos :: frame.parens)).OpensInOrder pos' := by
  refine withParens ?_ (List.forall_mem_cons.mpr ⟨hlt, fun p hp => (h.2 p hp).trans hlt⟩)
  rw [List.reverse_cons, List.pairwise_append]
  refine ⟨h.1, List.pairwise_singleton _ _, fun p hp q hq => ?_⟩
  rw [List.mem_singleton.mp hq]
  exact h.2 p (List.mem_reverse.mp hp)

theorem closeParen {opener : Nat} {outer : List Nat} (h : frame.OpensInOrder pos)
    (hparens : frame.parens = opener :: outer) : (frame.withParens outer).OpensInOrder pos := by
  obtain ⟨hascending, hbefore⟩ := h
  rw [hparens] at hascending hbefore
  rw [List.reverse_cons, List.pairwise_append] at hascending
  exact withParens hascending.1 fun p hp => hbefore p (List.mem_cons_of_mem _ hp)

end OpensInOrder

end Frame

namespace State

/-- Every layer stands on one that it can stand on, and its parentheses are in order. -/
structure IsWellFormed (s : State) : Prop where
  stands : (layersOf s.frames).IsChain Layer.StandsOn
  parens : ∀ frame ∈ s.frames, frame.OpensInOrder s.cursor.pos

theorem isWellFormed_start (cur : Cursor) : IsWellFormed ⟨cur, []⟩ where
  stands := .singleton _
  parens := List.forall_mem_nil _

theorem IsWellFormed.of_changes (h : s.IsWellFormed) (hchanges : (innermost s.frames).Changes s s')
    (hpos : s.cursor.pos ≤ s'.cursor.pos) : s'.IsWellFormed := by
  have hstands := h.stands
  have hparens : ∀ frame ∈ s.frames, frame.OpensInOrder s'.cursor.pos :=
    fun frame hframe => (h.parens frame hframe).mono hpos
  cases hchanges with
  | stay hframes => exact ⟨hframes ▸ hstands, hframes ▸ hparens⟩
  | enter inner hframes hnone hinner =>
    refine ⟨?_, ?_⟩
    · rw [hframes]
      exact isChain_layersOf_cons.mpr ⟨hinner, hstands⟩
    · rw [hframes]
      exact List.forall_mem_cons.mpr ⟨.of_parens_eq_nil hnone, hparens⟩
  | leave hlayer hframes =>
    refine ⟨?_, fun frame hframe => hparens frame (List.mem_of_mem_tail (hframes ▸ hframe))⟩
    rw [hframes]
    generalize s.frames = frames at hlayer hstands
    cases frames with
    | nil => exact absurd rfl hlayer
    | cons frame outer => exact (isChain_layersOf_cons.mp hstands).2
  | openParen frame hlayer hframes hlt =>
    obtain ⟨outer, houter⟩ := exists_outer hlayer
    have hframe := h.parens frame (houter ▸ List.mem_cons_self)
    rw [houter] at hframes hstands hparens
    refine ⟨?_, ?_⟩
    · rw [hframes]
      exact isChain_layersOf_withParens _ hstands
    · rw [hframes]
      exact List.forall_mem_cons.mpr ⟨hframe.openParen hlt, (List.forall_mem_cons.mp hparens).2⟩
  | closeParen frame opener outer' hlayer hopener hframes =>
    obtain ⟨outer, houter⟩ := exists_outer hlayer
    rw [houter] at hframes hstands hparens
    obtain ⟨hframe, hrest⟩ := List.forall_mem_cons.mp hparens
    refine ⟨?_, ?_⟩
    · rw [hframes]
      exact isChain_layersOf_withParens _ hstands
    · rw [hframes]
      exact List.forall_mem_cons.mpr ⟨hframe.closeParen hopener, hrest⟩

theorem IsWellFormed.of_step {rest : List Char} (h : s.IsWellFormed) (hrest : s.cursor.rest = c :: rest)
    (hstep : s.step c = .ok (s', found)) : s'.IsWellFormed := by
  refine h.of_changes ?_ (step_finds hstep).moves.pos_le
  rw [step_eq] at hstep
  exact Layer.changes_of_step (by simp [hrest]) hstep

end State

/-! ## The whole scan -/

namespace Runs

theorem isWellFormed (h : Runs s found s') (hstart : s.IsWellFormed) : s'.IsWellFormed := by
  induction h with
  | refl => exact hstart
  | step hrest hstep _ ih => exact ih (hstart.of_step hrest hstep)

theorem text_eq (h : Runs s found s') : s'.cursor.text = s.cursor.text := by
  induction h with
  | refl => rfl
  | step _ hstep _ ih => rw [ih, (step_finds hstep).moves.text_eq]

end Runs

/-- Two for each character of a text that a scan has before it, and one for each layer that it stands in. -/
def State.measure (text : List Char) (s : State) : Nat :=
  2 * (text.length - s.cursor.pos) + (layersOf s.frames).length

theorem State.measure_eq (s : State) : s.measure s.cursor.text = s.work + 1 := by
  have hlength : s.cursor.text.length = s.cursor.pos + s.cursor.rest.length := by
    rw [Cursor.text, List.length_append, List.length_reverse, s.cursor.pos_eq]
  rw [measure, work, layersOf, List.length_append, List.length_map, hlength, Nat.add_sub_cancel_left]
  rfl

/-- From wherever it is, a scan comes to the end of the text or to an escape that is too large. -/
theorem exists_runs (s : State) : ∃ found s', Runs s found s'
    ∧ (s'.cursor.rest = []
      ∨ ∃ c rest, s'.cursor.rest = c :: rest ∧ s'.step c = .error .escapeTooLarge) := by
  induction s using State.induction with
  | atEnd s hrest => exact ⟨[], s, .refl s, .inl hrest⟩
  | step s c rest hrest ih =>
    cases hstep : s.step c with
    | error fault =>
      obtain rfl := failsAtEscape_step c s fault hstep
      exact ⟨[], s, .refl s, .inr ⟨c, rest, hrest, hstep⟩⟩
    | ok outcome =>
      obtain ⟨found, s', hruns, hends⟩ := ih outcome.1 outcome.2 hstep
      exact ⟨_, s', .step hrest hstep hruns, hends⟩

/-- At every step of a scan its layers are well formed: the text of the file is the last of them, each other
one stands on one that it can stand on, and the parentheses in it are in order. The innermost layer, which
there always is, makes the step and takes no other layer from the stack, and the text of the file does not
even take itself, whatever frames it finds. Every step makes the measure smaller. So a scan comes to the end
of the text and tells what it found on the way, unless it comes to an escape that is too large. -/
theorem scan_stack (text : List Char) :
    (∀ found s, Runs ⟨.between [] text, []⟩ found s →
      s.IsWellFormed
      ∧ (layersOf s.frames).getLast? = some .file
      ∧ (∀ c, ∃ layer ∈ (layersOf s.frames).head?, s.step c = layer.step c s)
      ∧ ∀ c rest s' new, s.cursor.rest = c :: rest → s.step c = .ok (s', new) →
          (layersOf s.frames).tail <:+ layersOf s'.frames ∧ s'.measure text < s.measure text)
    ∧ (∀ s c rest s' new, s.cursor.rest = c :: rest → Layer.file.step c s = .ok (s', new) →
        s.frames <:+ s'.frames)
    ∧ ∃ found s, Runs ⟨.between [] text, []⟩ found s
      ∧ (s.cursor.rest = [] ∧ scan text
            = .ok (.ofFindings (found ++ (s.frames.reverse.flatMap Frame.issues).map .issue))
          ∨ (∃ c rest, s.cursor.rest = c :: rest ∧ s.step c = .error .escapeTooLarge)
            ∧ scan text = .error .escapeTooLarge) := by
  refine ⟨fun found s hruns => ⟨?_, ?_, ?_, ?_⟩, ?_, ?_⟩
  · exact hruns.isWellFormed (State.isWellFormed_start _)
  · exact List.getLast?_concat
  · exact fun c => ⟨_, head?_layersOf s.frames, s.step_eq c⟩
  · intro c rest s' new hrest hstep
    have hsuffix : s.frames.tail <:+ s'.frames := by
      rw [State.step_eq] at hstep
      exact (Layer.changes_of_step (by simp [hrest]) hstep).suffix.1
    have htext : s.cursor.text = text := hruns.text_eq
    have htext' : s'.cursor.text = text := (step_finds hstep).moves.text_eq.trans htext
    have hwork : s'.work < s.work := work_lt_of_step hrest hstep
    have hmeasure : s.measure text = s.work + 1 := htext ▸ s.measure_eq
    have hmeasure' : s'.measure text = s'.work + 1 := htext' ▸ s'.measure_eq
    exact ⟨tail_layersOf_suffix hsuffix, by omega⟩
  · intro s c rest s' new hrest hstep
    exact (Layer.changes_of_step (by simp [hrest]) hstep).suffix.2 rfl
  · obtain ⟨found, s, hruns, hends⟩ := exists_runs ⟨.between [] text, []⟩
    refine ⟨found, s, hruns, ?_⟩
    rw [scan_eq_outlineFrom, hruns.outlineFrom_eq]
    rcases hends with hrest | ⟨c, rest, hrest, hstep⟩
    · refine .inl ⟨hrest, ?_⟩
      rw [outlineFrom_of_nil hrest]
      exact congrArg Except.ok (Outline.ofFindings_append _ _).symm
    · refine .inr ⟨⟨c, rest, hrest, hstep⟩, ?_⟩
      rw [outlineFrom_of_error hrest hstep]
      rfl

end Markup

end TypstLint
