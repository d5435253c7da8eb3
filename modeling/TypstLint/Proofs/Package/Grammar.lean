import TypstLint.Proofs.Package.Spec

set_option autoImplicit false

/-! # The grammar of specifications

A specification is written as an optional `@`, a namespace, a slash, a name, a colon and a version.
Reading takes these texts and some more: a line end may stand behind the namespace and behind the name,
and blanks may stand before the version. It takes nothing else, and of the versions those whose numbers
have no more than `Text.maxDigits` digits (`Spec.parse_accepts`). -/

namespace TypstLint

variable {cs ns name version : List Char} {value : String} {spec : Spec}

/-! ## Grammar -/

namespace Grammar

/-- A namespace is a small letter, and behind it small letters, digits and hyphens. -/
def IsNamespace (cs : List Char) : Prop :=
  ∃ c rest, cs = c :: rest ∧ c.isLower = true ∧ ∀ d ∈ rest, isNameChar d = true ∨ d = '-'

/-- A name is made of runs of small letters and digits, with one hyphen between each two of them, and
starts with a letter. -/
def IsName (cs : List Char) : Prop :=
  (∃ c rest, cs = c :: rest ∧ c.isLower = true)
    ∧ ∃ runs, cs = ['-'].intercalate runs ∧ ∀ run ∈ runs, run ≠ [] ∧ ∀ c ∈ run, isNameChar c = true

/-- What stands in a specification where nothing should: behind the namespace, behind the name and
before the version. -/
structure Slack where
  behindNamespace : List Char
  behindName : List Char
  beforeVersion : List Char

/-- Nothing but what should. -/
def Slack.none : Slack := ⟨[], [], []⟩

/-- Whether reading passes over what stands there: a line end at the first two places, and blanks at the
last one. -/
structure Slack.IsPassed (slack : Slack) : Prop where
  behindNamespace : slack.behindNamespace = [] ∨ slack.behindNamespace = ['\n']
  behindName : slack.behindName = [] ∨ slack.behindName = ['\n']
  beforeVersion : ∀ c ∈ slack.beforeVersion, Text.isBlank c = true

/-- Whether a text is a specification with some slack. A line end that is passed over becomes part of
the namespace, or of the name. -/
def Spells (text : List Char) (slack : Slack) (spec : Spec) : Prop :=
  ∃ sign ns name, (sign = [] ∨ sign = ['@']) ∧ IsNamespace ns ∧ IsName name
    ∧ spec.namespaceName.toList = ns ++ slack.behindNamespace
    ∧ spec.name.toList = name ++ slack.behindName
    ∧ text = sign ++ (spec.namespaceName.toList ++ '/' :: (spec.name.toList ++ ':' ::
        (slack.beforeVersion ++ spec.version.render.toList)))

end Grammar

/-! ## Namespaces and names -/

/-- The tests overlook one line end behind a text without line ends. -/
theorem dropLineFeed_iff {P : List Char → Prop} (hP : ∀ w, P w → '\n' ∉ w) :
    P (dropLineFeed cs) ↔ ∃ w tail, cs = w ++ tail ∧ (tail = [] ∨ tail = ['\n']) ∧ P w := by
  constructor
  · intro h
    unfold dropLineFeed at h
    split at h
    · next hlast =>
      refine ⟨cs.dropLast, ['\n'], ?_, .inr rfl, h⟩
      exact (List.dropLast_append_getLast? _ (beq_iff_eq.mp hlast)).symm
    · exact ⟨cs, [], cs.append_nil.symm, .inl rfl, h⟩
  · rintro ⟨w, tail, rfl, rfl | rfl, hw⟩
    · have hlast : ¬ (w.getLast? == some '\n') = true := fun hlast =>
        hP w hw (List.mem_of_getLast? (beq_iff_eq.mp hlast))
      rwa [List.append_nil, dropLineFeed, if_neg hlast]
    · rwa [dropLineFeed, List.getLast?_concat, if_pos (beq_self_eq_true _), List.dropLast_concat]

theorem startsLower_iff : startsLower cs = true ↔ ∃ c rest, cs = c :: rest ∧ c.isLower = true := by
  cases cs with
  | nil => simp [startsLower]
  | cons c rest => simp [startsLower]

namespace Grammar

/-- A text of small letters, digits and hyphens has no other characters in it. -/
theorem notMem_of_forall {d : Char} (h : ∀ c ∈ cs, isNameChar c = true ∨ c = '-')
    (hd : isNameChar d = false) (hne : d ≠ '-') : d ∉ cs := by
  intro hmem
  rcases h d hmem with hd' | hd'
  · rw [hd] at hd'
    cases hd'
  · exact hne hd'

theorem IsNamespace.mem (h : IsNamespace cs) : ∀ c ∈ cs, isNameChar c = true ∨ c = '-' := by
  obtain ⟨c, rest, rfl, hc, hrest⟩ := h
  intro d hd
  rcases List.mem_cons.mp hd with rfl | hd
  · exact .inl (by rw [isNameChar, hc, Bool.true_or])
  · exact hrest d hd

theorem IsName.mem (h : IsName cs) : ∀ c ∈ cs, isNameChar c = true ∨ c = '-' := by
  obtain ⟨-, runs, rfl, hruns⟩ := h
  intro c hc
  rcases Text.mem_of_mem_intercalate hc with hsep | ⟨run, hrun, hc⟩
  · exact .inr hsep
  · exact .inl ((hruns run hrun).2 c hc)

/-- There are no line ends in a specification without slack. -/
theorem lineFeed_notMem_of_spells {text : List Char} (h : Spells text .none spec) : '\n' ∉ text := by
  obtain ⟨sign, ns, name, hsign, hns, hname, hnamespace, hpackage, rfl⟩ := h
  have hline {cs : List Char} (hcs : ∀ c ∈ cs, isNameChar c = true ∨ c = '-') : '\n' ∉ cs :=
    notMem_of_forall hcs (by decide) (by decide)
  have hversion : '\n' ∉ spec.version.render.toList := spec.version.notMem_render rfl (by decide)
  have hsign : '\n' ∉ sign := by
    rcases hsign with rfl | rfl
    · exact List.not_mem_nil
    · decide
  rw [hnamespace, hpackage]
  simp [Slack.none, hline hns.mem, hline hname.mem, hversion, hsign]

end Grammar

theorem isNamespace_iff : isNamespace cs = true ↔
    ∃ w tail, cs = w ++ tail ∧ (tail = [] ∨ tail = ['\n']) ∧ Grammar.IsNamespace w := by
  have hlines (w : List Char) (hw : Grammar.IsNamespace w) : '\n' ∉ w :=
    Grammar.notMem_of_forall hw.mem (by decide) (by decide)
  rw [← dropLineFeed_iff hlines, isNamespace, Bool.and_eq_true, startsLower_iff, List.all_eq_true]
  constructor
  · rintro ⟨⟨c, rest, heq, hc⟩, hall⟩
    refine ⟨c, rest, heq, hc, fun d hd => ?_⟩
    simpa using hall d (by rw [heq]; exact List.mem_cons_of_mem c hd)
  · intro h
    obtain ⟨c, rest, heq, hc, -⟩ := id h
    exact ⟨⟨c, rest, heq, hc⟩, fun d hd => by simpa using h.mem d hd⟩

theorem isPackageName_iff : isPackageName cs = true ↔
    ∃ w tail, cs = w ++ tail ∧ (tail = [] ∨ tail = ['\n']) ∧ Grammar.IsName w := by
  have hlines (w : List Char) (hw : Grammar.IsName w) : '\n' ∉ w :=
    Grammar.notMem_of_forall hw.mem (by decide) (by decide)
  rw [← dropLineFeed_iff hlines, isPackageName, Bool.and_eq_true, startsLower_iff, List.all_eq_true]
  refine and_congr_right fun hstart => ?_
  constructor
  · intro hall
    refine ⟨_, (Text.intercalate_splitOn _).symm, fun run hrun => ?_⟩
    simpa using hall run hrun
  · rintro ⟨runs, heq, hruns⟩
    have hne : runs ≠ [] := by
      rintro rfl
      obtain ⟨c, rest, hcons, -⟩ := hstart
      rw [heq] at hcons
      cases hcons
    have hsep : ∀ run ∈ runs, '-' ∉ run := fun run hrun hmem =>
      absurd ((hruns run hrun).2 '-' hmem) (by decide)
    rw [heq, Text.splitOn_intercalate hne hsep]
    intro run hrun
    simpa using hruns run hrun

/-! ## Specifications -/

namespace Spec

/-- The text of a specification without its sign. -/
def withoutSign (cs : List Char) : List Char := if cs.head? == some '@' then cs.drop 1 else cs

theorem withoutSign_of_isLower {c : Char} {rest : List Char} (hc : c.isLower = true) :
    withoutSign (c :: rest) = c :: rest := by
  refine if_neg fun hsign => ?_
  obtain rfl : c = '@' := by simpa using hsign
  cases hc

/-- The pieces of a text that is read as a specification if its version is. -/
structure HasPieces (value : String) (ns name version : List Char) : Prop where
  text : withoutSign (Text.trim value.toList) = ns ++ '/' :: (name ++ ':' :: version)
  isNamespace : isNamespace ns = true
  isPackageName : isPackageName name = true

theorem slash_notMem_of_isNamespace (h : isNamespace ns = true) : '/' ∉ ns := by
  obtain ⟨w, tail, rfl, htail, hw⟩ := isNamespace_iff.mp h
  rw [List.mem_append, not_or]
  refine ⟨Grammar.notMem_of_forall hw.mem (by decide) (by decide), ?_⟩
  rcases htail with rfl | rfl
  · exact List.not_mem_nil
  · decide

theorem colon_notMem_of_isPackageName (h : isPackageName name = true) : ':' ∉ name := by
  obtain ⟨w, tail, rfl, htail, hw⟩ := isPackageName_iff.mp h
  rw [List.mem_append, not_or]
  refine ⟨Grammar.notMem_of_forall hw.mem (by decide) (by decide), ?_⟩
  rcases htail with rfl | rfl
  · exact List.not_mem_nil
  · decide

/-- Where there are all pieces, reading goes on with the version. -/
theorem HasPieces.parse_eq (h : HasPieces value ns name version) :
    parse value = (Version.parse (String.ofList version)).map fun v =>
      ⟨String.ofList ns, String.ofList name, v⟩ := by
  have hslash := Text.cut_eq_some_iff.mpr ⟨slash_notMem_of_isNamespace h.isNamespace, h.text⟩
  have hcolon : Text.cut ':' (name ++ ':' :: version) = (name, some version) :=
    Text.cut_eq_some_iff.mpr ⟨colon_notMem_of_isPackageName h.isPackageName, rfl⟩
  unfold parse
  dsimp only
  rw [← withoutSign, hslash]
  dsimp only
  rw [hcolon]
  dsimp only
  rw [h.isNamespace, h.isPackageName]
  rfl

/-- Where a piece is missing or no good, the text is no specification. -/
theorem parse_of_not_hasPieces (h : ∀ ns name version, ¬ HasPieces value ns name version) :
    ∃ e, parse value = .error e ∧ ∀ digits, e ≠ .numeralTooLong digits := by
  unfold parse
  dsimp only
  rw [← withoutSign]
  split
  · exact ⟨_, rfl, fun _ => SpecError.noConfusion⟩
  · next ns rest hslash =>
    split
    · exact ⟨_, rfl, fun _ => SpecError.noConfusion⟩
    · next name version hcolon =>
      split
      · exact ⟨_, rfl, fun _ => SpecError.noConfusion⟩
      · next hns =>
        split
        · exact ⟨_, rfl, fun _ => SpecError.noConfusion⟩
        · next hname =>
          obtain ⟨-, hbody⟩ := Text.cut_eq_some_iff.mp hslash
          obtain ⟨-, hrest⟩ := Text.cut_eq_some_iff.mp hcolon
          exact absurd ⟨hrest ▸ hbody, by simpa using hns, by simpa using hname⟩ (h ns name version)

/-- A text is its sign, if it has one, and what is behind that. -/
theorem exists_sign (cs : List Char) : ∃ sign, (sign = [] ∨ sign = ['@']) ∧ cs = sign ++ withoutSign cs := by
  unfold withoutSign
  split
  · next hsign =>
    obtain ⟨rest, rfl⟩ := List.head?_eq_some_iff.mp (beq_iff_eq.mp hsign)
    exact ⟨['@'], .inr rfl, rfl⟩
  · exact ⟨[], .inl rfl, rfl⟩

/-- No blank stands behind the version, as there is none behind the text. -/
theorem HasPieces.isBlank_getLast? (h : HasPieces value ns name version) :
    ∀ c ∈ version.getLast?, Text.isBlank c = false := by
  intro c hc
  obtain ⟨sign, -, hsign⟩ := exists_sign (Text.trim value.toList)
  have hfront : Text.trim value.toList = (sign ++ ns ++ '/' :: name ++ [':']) ++ version := by
    rw [hsign, h.text]
    simp
  have hlast : (Text.trim value.toList).getLast? = some c := by
    rw [hfront, List.getLast?_append, hc]
    rfl
  exact Text.eq_false_of_getLast?_trimWhile hlast

/-- The pieces of a text make it a specification, if the last one is a version between blanks. -/
theorem exists_spells_iff : (∃ slack : Grammar.Slack, slack.IsPassed
      ∧ Grammar.Spells (Text.trim value.toList) slack spec) ↔
    ∃ version, HasPieces value spec.namespaceName.toList spec.name.toList version
      ∧ Text.trim version = spec.version.render.toList := by
  constructor
  · rintro ⟨slack, hpassed, sign, ns, name, hsign, hns, hname, hnamespace, hpackage, htext⟩
    refine ⟨slack.beforeVersion ++ spec.version.render.toList, ⟨?_, ?_, ?_⟩, ?_⟩
    · obtain ⟨c, rest, hfirst, hc, -⟩ := hns
      rw [htext]
      rcases hsign with rfl | rfl
      · rw [hnamespace, hfirst]
        exact withoutSign_of_isLower hc
      · rfl
    · exact isNamespace_iff.mpr ⟨ns, _, hnamespace, hpassed.behindNamespace, hns⟩
    · exact isPackageName_iff.mpr ⟨name, _, hpackage, hpassed.behindName, hname⟩
    · rw [Text.trim, Text.trimWhile_append_of_forall hpassed.beforeVersion]
      exact spec.version.trim_render
  · rintro ⟨version, hpieces, htrim⟩
    obtain ⟨sign, hsign, htext⟩ := exists_sign (Text.trim value.toList)
    obtain ⟨ns, tail, hnamespace, htail, hns⟩ := isNamespace_iff.mp hpieces.isNamespace
    obtain ⟨name, tail', hpackage, htail', hname⟩ := isPackageName_iff.mp hpieces.isPackageName
    refine ⟨⟨tail, tail', version.takeWhile Text.isBlank⟩, ⟨htail, htail', ?_⟩, sign, ns, name, hsign,
      hns, hname, hnamespace, hpackage, ?_⟩
    · exact fun c hc => List.all_eq_true.mp List.all_takeWhile c hc
    · have hversion : version.takeWhile Text.isBlank ++ Text.trim version = version :=
        Text.takeWhile_append_trimWhile hpieces.isBlank_getLast?
      dsimp only
      rw [← htrim, hversion, ← hpieces.text]
      exact htext

/-- A text has its pieces in one way. -/
theorem HasPieces.unique {ns' name' version' : List Char} (h : HasPieces value ns name version)
    (h' : HasPieces value ns' name' version') : ns' = ns ∧ name' = name ∧ version' = version := by
  obtain ⟨hns, hrest⟩ := append_cons_inj_of_first (slash_notMem_of_isNamespace h'.isNamespace)
    (slash_notMem_of_isNamespace h.isNamespace) (h'.text.symm.trans h.text)
  obtain ⟨hname, hversion⟩ := append_cons_inj_of_first (colon_notMem_of_isPackageName h'.isPackageName)
    (colon_notMem_of_isPackageName h.isPackageName) hrest
  exact ⟨hns, hname, hversion⟩

/-- Whether a text is a specification, up to slack that is passed over. -/
def IsSpelled (value : String) (spec : Spec) : Prop :=
  ∃ slack : Grammar.Slack, slack.IsPassed ∧ Grammar.Spells (Text.trim value.toList) slack spec

theorem HasPieces.isSpelled_iff (h : HasPieces value ns name version) : IsSpelled value spec ↔
    spec.namespaceName.toList = ns ∧ spec.name.toList = name
      ∧ Text.trim version = spec.version.render.toList := by
  rw [IsSpelled, exists_spells_iff]
  constructor
  · rintro ⟨version', h', htrim⟩
    obtain ⟨hns, hname, rfl⟩ := h.unique h'
    exact ⟨hns, hname, htrim⟩
  · rintro ⟨rfl, rfl, htrim⟩
    exact ⟨version, h, htrim⟩

theorem HasPieces.parse_eq_ok_iff (h : HasPieces value ns name version) :
    parse value = .ok spec ↔ spec.version.IsShort ∧ IsSpelled value spec := by
  rw [h.parse_eq, map_eq_ok, h.isSpelled_iff]
  simp only [Version.parse_eq_ok_iff, String.toList_ofList]
  constructor
  · rintro ⟨v, ⟨hshort, htrim⟩, rfl⟩
    exact ⟨hshort, String.toList_ofList, String.toList_ofList, htrim⟩
  · rintro ⟨hshort, rfl, rfl, htrim⟩
    refine ⟨spec.version, ⟨hshort, htrim⟩, ?_⟩
    rw [String.ofList_toList, String.ofList_toList]

theorem HasPieces.parse_invalid_iff (h : HasPieces value ns name version) :
    (∃ e, parse value = .error e ∧ ∀ digits, e ≠ .numeralTooLong digits) ↔
      ¬ ∃ spec, IsSpelled value spec := by
  have hversion : (∃ spec, IsSpelled value spec) ↔ ∃ v : Version, Text.trim version = v.render.toList := by
    constructor
    · rintro ⟨spec, hspec⟩
      exact ⟨spec.version, (h.isSpelled_iff.mp hspec).2.2⟩
    · rintro ⟨v, htrim⟩
      exact ⟨⟨String.ofList ns, String.ofList name, v⟩,
        h.isSpelled_iff.mpr ⟨String.toList_ofList, String.toList_ofList, htrim⟩⟩
  rw [hversion, h.parse_eq]
  simp only [map_eq_error]
  rw [Version.parse_invalid_iff, String.toList_ofList]

/-- Without its pieces a text is no specification. -/
theorem not_isSpelled (h : ∀ ns name version, ¬ HasPieces value ns name version) : ¬ IsSpelled value spec := by
  intro hspec
  obtain ⟨version, hpieces, -⟩ := exists_spells_iff.mp hspec
  exact h _ _ version hpieces

theorem parse_eq_ok_iff : parse value = .ok spec ↔ spec.version.IsShort ∧ IsSpelled value spec := by
  by_cases hpieces : ∃ ns name version, HasPieces value ns name version
  · obtain ⟨ns, name, version, h⟩ := hpieces
    exact h.parse_eq_ok_iff
  · simp only [not_exists] at hpieces
    obtain ⟨e, he, -⟩ := parse_of_not_hasPieces hpieces
    rw [he]
    exact iff_of_false nofun fun hspec => not_isSpelled hpieces hspec.2

theorem parse_invalid_iff : (∃ e, parse value = .error e ∧ ∀ digits, e ≠ .numeralTooLong digits) ↔
    ¬ ∃ spec, IsSpelled value spec := by
  by_cases hpieces : ∃ ns name version, HasPieces value ns name version
  · obtain ⟨ns, name, version, h⟩ := hpieces
    exact h.parse_invalid_iff
  · simp only [not_exists] at hpieces
    exact iff_of_true (parse_of_not_hasPieces hpieces) fun ⟨_, hspec⟩ => not_isSpelled hpieces hspec

/-- Reading accepts a text exactly if it is a specification without the blanks around it, up to line
ends behind the namespace and the name and blanks before the version, and no number of the version is too
long. Unless such a number is why it fails, it fails because the text is no such specification. -/
theorem parse_accepts (value : String) :
    (∀ spec, parse value = .ok spec ↔ spec.version.IsShort ∧ IsSpelled value spec)
    ∧ ((∃ e, parse value = .error e ∧ ∀ digits, e ≠ .numeralTooLong digits) ↔
        ¬ ∃ spec, IsSpelled value spec) :=
  ⟨fun _ => parse_eq_ok_iff, parse_invalid_iff⟩

/-- A text that is read although a line end stands in it. -/
theorem parse_accepts_lineFeed : parse "@preview/cetz\n:0.2.1" = .ok ⟨"preview", "cetz\n", ⟨0, 2, 1⟩⟩
    ∧ ¬ ∃ spec, Grammar.Spells (Text.trim "@preview/cetz\n:0.2.1".toList) .none spec := by
  refine ⟨by decide, ?_⟩
  rintro ⟨spec, h⟩
  exact Grammar.lineFeed_notMem_of_spells h (by decide)

/-! ## Specifications read and printed -/

theorem isBlank_of_isLower {c : Char} (h : c.isLower = true) : Text.isBlank c = false := by
  have hbounds : (decide ('a' ≤ c) && decide (c ≤ 'z')) = true := h
  obtain ⟨hlow, hhigh⟩ : 97 ≤ c.toNat ∧ c.toNat ≤ 122 := by
    simpa [Char.le_def, UInt32.le_iff_toNat_le] using hbounds
  simp [Text.isBlank, Text.inRanges, Text.blankRanges]
  omega

/-- A specification is spelled by its text, with its sign or without. -/
theorem IsSpelled.of_render (h : IsSpelled value spec) (sign : List Char)
    (hsign : sign = [] ∨ sign = ['@']) : IsSpelled (String.ofList (sign ++ spec.render.toList.drop 1)) spec := by
  obtain ⟨slack, hpassed, -, ns, name, -, hns, hname, hnamespace, hpackage, -⟩ := h
  have htext : spec.render.toList.drop 1 = spec.namespaceName.toList ++ '/' :: (spec.name.toList ++ ':' ::
      spec.version.render.toList) := by
    rw [toList_render]
    simp
  have hfirst : ∀ c ∈ (sign ++ spec.render.toList.drop 1).head?, Text.isBlank c = false := by
    intro c hc
    rcases hsign with rfl | rfl
    · obtain ⟨d, rest, rfl, hd, -⟩ := hns
      rw [htext, hnamespace] at hc
      obtain rfl : d = c := by simpa using hc
      exact isBlank_of_isLower hd
    · obtain rfl : '@' = c := by simpa using hc
      rfl
  have hlast : ∀ c ∈ (sign ++ spec.render.toList.drop 1).getLast?, Text.isBlank c = false := by
    intro c hc
    have hne : spec.version.render.toList ≠ [] := by
      rw [Version.toList_render]
      simp
    have hfront : sign ++ spec.render.toList.drop 1 = (sign ++ spec.namespaceName.toList ++ '/' ::
        spec.name.toList ++ [':']) ++ spec.version.render.toList := by
      rw [htext]
      simp
    rw [hfront, List.getLast?_append_of_ne_nil _ hne] at hc
    exact isBlank_of_isDigit_or_point (Version.mem_render (List.mem_of_getLast? hc))
  have htrim : Text.trim (sign ++ spec.render.toList.drop 1) = sign ++ spec.render.toList.drop 1 :=
    Text.trimWhile_eq_self_of_ends hfirst hlast
  refine ⟨{ slack with beforeVersion := [] }, ⟨hpassed.behindNamespace, hpassed.behindName, by simp⟩, sign, ns,
    name, hsign, hns, hname, hnamespace, hpackage, ?_⟩
  rw [String.toList_ofList, htrim, htext]
  rfl

/-- A specification that was read is read again from its text, with its sign or without. -/
theorem parse_render (h : parse value = .ok spec) :
    parse spec.render = .ok spec ∧ parse (String.ofList (spec.render.toList.drop 1)) = .ok spec := by
  obtain ⟨hshort, hspelled⟩ := parse_eq_ok_iff.mp h
  have hsigned : String.ofList (['@'] ++ spec.render.toList.drop 1) = spec.render := by
    rw [← String.toList_inj, String.toList_ofList, toList_render]
    rfl
  constructor
  · rw [← hsigned]
    exact parse_eq_ok_iff.mpr ⟨hshort, hspelled.of_render ['@'] (.inr rfl)⟩
  · exact parse_eq_ok_iff.mpr ⟨hshort, hspelled.of_render [] (.inl rfl)⟩

end Spec

end TypstLint
