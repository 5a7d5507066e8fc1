/-
**The lines a status consists of.**

The board prints `IN<n>: x<label>` and `OUT<n> <- IN<m>`, or `X` with a note for an open output, with
blanks around the words.  The scanners take these lines, but not only these: something else may stand
in front of the `x` or the arrow, and behind the target.  A tab, on the other hand, stops them where
they expect a space.  The status is read exactly when that makes no difference.

Main definitions:

* `Afm.Board.IsGainLine`, `Afm.Board.IsRoutingLine` — the lines of a status;
* `Afm.Board.StatusExact`, `Afm.Board.StatusSettled` — the status is read exactly, and the lines that
  are taken wrongly do not matter.

Main results:

* `Afm.Board.IsGainLine.untab`, `Afm.Board.IsRoutingLine.untab` — without its tabs, a line of a status
  is taken;
* `Afm.Board.statusExact_iff` — **the status is read exactly when the lines taken wrongly do not
  matter**.
-/

import RedPitayaAfm.StatusLines

set_option relaxedAutoImplicit false
set_option autoImplicit false

namespace Afm

namespace Board

open StringScan

/-! ### The lines a status consists of -/

/-- Blanks. -/
def Blanks (s : Text) : Prop := ∀ c ∈ s, isIndent c = true

/-- Blanks and carriage returns. -/
def isClosing (c : Char) : Bool := isIndent c || c == '\r'

/-- A line `IN<n>: x<label>`. -/
def IsGainLine : ℕ → Text → GainSetting → Prop := GainShape Blanks isClosing

/-- A note in parentheses. -/
def IsNote (s : Text) : Prop :=
  s = [] ∨ ∃ gap note, s = gap ++ '(' :: note ++ [')'] ∧ Blanks gap ∧ '(' ∉ note ∧ ')' ∉ note

/-- The target of a routing line: an input, or `X` with an optional note. -/
def StatesTarget (numChannels target : ℕ) (text : Text) : Prop :=
  ∃ word trail, text = word ++ trail ∧ (∀ c ∈ trail, isClosing c = true) ∧
    ((target = disconnected ∧ ∃ note, word = 'X' :: note ∧ IsNote note) ∨
      (target < numChannels ∧ word = "IN".toList ++ toText (target + 1)))

/-- A line `OUT<n> <- IN<m>` or `OUT<n> <- X`. -/
def IsRoutingLine (numChannels : ℕ) : ℕ → Text → ℕ → Prop :=
  RoutingShape (fun gap => Blanks gap ∧ gap ≠ []) (fun gap => Blanks gap ∧ gap ≠ [])
    (StatesTarget numChannels)

/-- The status is read exactly: a channel is valid when a line of its section is about it, and the
last such line counts. -/
def StatusExact (statusText : Text) (numChannels : ℕ) : Prop :=
  (∃ gains, parseGainStatus statusText numChannels = .ok gains ∧
    ∀ i < numChannels, ∀ setting, channelValue gains i = some setting ↔
      LastOf (IsGainLine i)
        (sectionLines '\n' (gainSection statusText)) setting) ∧
  ∃ routing, parseRoutingStatus statusText numChannels = .ok routing ∧
    ∀ i < numChannels, ∀ target, channelValue routing i = some target ↔
      LastOf (IsRoutingLine numChannels i)
        (sectionLines '\n' (routingSection statusText)) target

/-- The lines that are taken wrongly do not matter: the last line about a channel is a proper one
that the scanner takes, or the last proper, or taken, line before it says the same. -/
def StatusSettled (statusText : Text) (numChannels : ℕ) : Prop :=
  (∀ i < numChannels, Settled (TakenGain i)
    (IsGainLine i) (sectionLines '\n' (gainSection statusText))) ∧
  ∀ i < numChannels, Settled (TakenRouting numChannels i)
    (IsRoutingLine numChannels i)
    (sectionLines '\n' (routingSection statusText))

/-- A text with spaces for its tabs. -/
def untab (s : Text) : Text := s.map fun c => if c = '\t' then ' ' else c

theorem untab_append (s t : Text) : untab (s ++ t) = untab s ++ untab t := List.map_append

theorem untab_of_not_mem {s : Text} (h : '\t' ∉ s) : untab s = s := by
  unfold untab
  conv_rhs => rw [← List.map_id s]
  refine List.map_congr_left ?_
  intro c hc
  have hne : c ≠ '\t' := by
    rintro rfl
    exact h hc
  rw [if_neg hne]
  rfl

/-- Without its tabs a text keeps the characters that are none. -/
theorem mem_untab {c : Char} (hc : c ≠ ' ') {s : Text} (h : c ∈ untab s) : c ∈ s := by
  obtain ⟨d, hd, rfl⟩ := List.mem_map.1 h
  by_cases htab : d = '\t'
  · rw [if_pos htab] at hc
    exact absurd rfl hc
  · rwa [if_neg htab]

theorem isIndent_untab {s : Text} (h : ∀ c ∈ s, isIndent c = true) :
    ∀ c ∈ untab s, (c == ' ') = true := by
  intro c hc
  obtain ⟨d, hd, rfl⟩ := List.mem_map.1 hc
  have hd' := h d hd
  simp only [isIndent, Bool.or_eq_true, beq_iff_eq] at hd'
  rcases hd' with rfl | rfl <;> rfl

theorem tab_not_mem_toText (n : ℕ) : '\t' ∉ toText n := by
  intro h
  exact absurd (isDigit_of_mem_toText h) (by decide)

theorem tab_not_mem_label (setting : GainSetting) : '\t' ∉ setting.label := by
  have hall : setting.label.all (fun c => c != '\t') = true := by cases setting <;> rfl
  intro h
  simpa using List.all_eq_true.1 hall _ h

/-- A gain line without its tabs. -/
theorem GainShape.untab {gap gap' : Text → Prop} {closing closing' : Char → Bool}
    (hgap : ∀ s, gap s → gap' (untab s))
    (hclosing : ∀ s : Text, (∀ c ∈ s, closing c = true) → ∀ c ∈ Board.untab s, closing' c = true)
    {channel : ℕ} {setting : GainSetting} {line : Text} (h : GainShape gap closing channel line setting) :
    GainShape gap' closing' channel (Board.untab line) setting := by
  obtain ⟨lead, junk, trail, rfl, hlead, hjunk, htrail⟩ := h
  refine ⟨Board.untab lead, Board.untab junk, Board.untab trail, ?_, ?_, hgap junk hjunk,
    hclosing trail htrail⟩
  · simp only [untab_append, untab_of_not_mem (tab_not_mem_toText _),
      untab_of_not_mem (tab_not_mem_label _)]
    rfl
  · intro c hc
    have hspace := isIndent_untab hlead c hc
    rw [isIndent, hspace]
    rfl

theorem takenGain_unique {channel : ℕ} (h : channel < 4) {setting setting' : GainSetting} {line : Text}
    (h₁ : TakenGain channel line setting) (h₂ : TakenGain channel line setting') :
    setting = setting' := by
  have h₁' := (gainLine_eq_some_iff (le_refl 4)).2 ⟨h, h₁⟩
  have h₂' := (gainLine_eq_some_iff (le_refl 4)).2 ⟨h, h₂⟩
  rw [h₁'] at h₂'
  exact (Prod.mk.inj (Option.some.inj (Except.ok.inj h₂'))).2

/-- What the scanner takes, it takes without tabs too. -/
theorem TakenGain.untab {channel : ℕ} {setting : GainSetting} {line : Text}
    (h : TakenGain channel line setting) : TakenGain channel (untab line) setting := by
  refine GainShape.untab ?_ ?_ h
  · intro s hs hx
    exact hs (mem_untab (by decide) hx)
  · intro s hs
    have hno : '\t' ∉ s := by
      intro hmem
      exact absurd (hs _ hmem) (by decide)
    rwa [untab_of_not_mem hno]

/-- A gain line is taken without its tabs. -/
theorem IsGainLine.untab {channel : ℕ} {setting : GainSetting} {line : Text}
    (h : IsGainLine channel line setting) : TakenGain channel (untab line) setting := by
  refine GainShape.untab ?_ ?_ h
  · intro s hs hx
    have hspace := isIndent_untab hs _ hx
    exact absurd hspace (by decide)
  · intro s hs c hc
    obtain ⟨d, hd, rfl⟩ := List.mem_map.1 hc
    have hd' := hs d hd
    by_cases htab : d = '\t'
    · rw [if_pos htab]
      rfl
    · rw [if_neg htab]
      simpa [isClosing, isIndent, isTrailing, htab, or_comm] using hd'

/-- What a scanner reads is what the proper lines say when its differences from them are settled. -/
theorem exact_iff_settled {β : Type} {numChannels : ℕ} {parsed : Except Misuse (Option (List (Option β)))}
    {result : Option (List (Option β))} {reads taken proper : ℕ → Text → β → Prop} {ls : List Text}
    (hparsed : parsed = .ok result)
    (hlast : ∀ i < numChannels, ∀ v, channelValue result i = some v ↔ LastOf (reads i) ls v)
    (hreads : ∀ i < numChannels, ∀ l v, reads i l v ↔ taken i l v)
    (htaken : ∀ i < numChannels, ∀ l v w, taken i l v → taken i l w → v = w)
    (hproper : ∀ i < numChannels, ∀ l v w, proper i l v → proper i l w → v = w)
    (hboth : ∀ i < numChannels, ∀ l v w, taken i l v → proper i l w → v = w) :
    (∃ found, parsed = .ok found ∧
      ∀ i < numChannels, ∀ v, channelValue found i = some v ↔ LastOf (proper i) ls v) ↔
    ∀ i < numChannels, Settled (taken i) (proper i) ls := by
  -- channel by channel, since the scanner records each by itself
  have hsettled : ∀ i < numChannels,
      (∀ v, channelValue result i = some v ↔ LastOf (proper i) ls v) ↔
        Settled (taken i) (proper i) ls := by
    intro i hi
    have heq : reads i = taken i := by
      funext l v
      exact propext (hreads i hi l v)
    rw [← lastOf_iff_settled (htaken i hi) (hproper i hi) (hboth i hi)]
    refine forall_congr' fun v => ?_
    rw [hlast i hi v, heq]
  constructor
  · rintro ⟨found, hfound, h⟩ i hi
    rw [hparsed] at hfound
    obtain rfl := Except.ok.inj hfound
    exact (hsettled i hi).1 (h i hi)
  · intro h
    exact ⟨result, hparsed, fun i hi => (hsettled i hi).2 (h i hi)⟩

/-- The gains are read exactly when the lines taken wrongly do not matter. -/
theorem gains_exact_iff {numChannels : ℕ} (hn : numChannels ≤ 4) (statusText : Text) :
    (∃ gains, parseGainStatus statusText numChannels = .ok gains ∧
      ∀ i < numChannels, ∀ setting, channelValue gains i = some setting ↔
        LastOf (IsGainLine i) (sectionLines '\n' (gainSection statusText)) setting) ↔
    ∀ i < numChannels, Settled (TakenGain i) (IsGainLine i)
      (sectionLines '\n' (gainSection statusText)) := by
  obtain ⟨result, hresult, -, hlast⟩ := parseGainStatus_reads statusText numChannels
  refine exact_iff_settled hresult hlast ?_ ?_ ?_ ?_
  · intro i hi l setting
    rw [gainLine_eq_some_iff hn]
    exact and_iff_right hi
  · exact fun i hi l v w hv hw => takenGain_unique (by omega) hv hw
  · exact fun i hi l v w hv hw => takenGain_unique (by omega) hv.untab hw.untab
  · exact fun i hi l v w hv hw => takenGain_unique (by omega) hv.untab hw.untab

/-! ### Routing lines without tabs -/

/-- A routing line without its tabs. -/
theorem RoutingShape.untab {gap gap' gap₁ gap₁' : Text → Prop} {target target' : ℕ → Text → Prop}
    (hgap : ∀ s, gap s → gap₁ (Board.untab s)) (hgap' : ∀ s, gap' s → gap₁' (Board.untab s))
    (htarget : ∀ input s, target input s → target' input (Board.untab s)) {output input : ℕ}
    {line : Text} (h : RoutingShape gap gap' target output line input) :
    RoutingShape gap₁ gap₁' target' output (Board.untab line) input := by
  obtain ⟨lead, junk, spaces, text, rfl, hlead, hjunk, hspaces, htext⟩ := h
  refine ⟨Board.untab lead, Board.untab junk, Board.untab spaces, Board.untab text, ?_, ?_,
    hgap junk hjunk, hgap' spaces hspaces, htarget input text htext⟩
  · simp only [untab_append, untab_of_not_mem (tab_not_mem_toText _)]
    rfl
  · intro c hc
    have hspace := isIndent_untab hlead c hc
    rw [isIndent, hspace]
    rfl

theorem takenRouting_unique {numChannels : ℕ} (hn : numChannels ≤ 4) {output : ℕ}
    (h : output < numChannels) {input input' : ℕ} {line : Text}
    (h₁ : TakenRouting numChannels output line input)
    (h₂ : TakenRouting numChannels output line input') : input = input' := by
  have h₁' := (routingLine_eq_some_iff hn).2 ⟨h, h₁⟩
  have h₂' := (routingLine_eq_some_iff hn).2 ⟨h, h₂⟩
  rw [h₁'] at h₂'
  exact (Prod.mk.inj (Option.some.inj (Except.ok.inj h₂'))).2

/-- A text that has no spaces when its tabs are spaces is left as it is. -/
theorem eq_of_untab {s t : Text} (h : untab s = t) (ht : ' ' ∉ t) : s = t := by
  have hno : '\t' ∉ s := by
    intro hs
    refine ht ?_
    rw [← h]
    exact List.mem_map.2 ⟨'\t', hs, rfl⟩
  rwa [untab_of_not_mem hno] at h

/-- No arrow comes from a tab. -/
theorem arrow_untab {s : Text} (h : ¬"<-".toList <:+: s) : ¬"<-".toList <:+: untab s := by
  rintro ⟨a, b, hab⟩
  obtain ⟨s₁, b', rfl, hs₁, -⟩ := List.map_eq_append_iff.1 hab.symm
  obtain ⟨a', arrow, rfl, -, harrow⟩ := List.map_eq_append_iff.1 hs₁
  refine h ⟨a', b', ?_⟩
  rw [eq_of_untab harrow (by decide)]

/-- What the scanner takes, it takes without tabs too. -/
theorem TakenRouting.untab {numChannels output input : ℕ} {line : Text}
    (h : TakenRouting numChannels output line input) :
    TakenRouting numChannels output (untab line) input := by
  refine RoutingShape.untab (fun s => arrow_untab) ?_ ?_ h
  · intro s hs
    refine isIndent_untab fun c hc => ?_
    rw [isIndent, hs c hc]
    rfl
  · rintro input s (⟨rfl, hX⟩ | ⟨hlt, more, rfl⟩)
    · refine .inl ⟨rfl, ?_⟩
      rw [Board.untab, List.head?_map, hX]
      rfl
    · refine .inr ⟨hlt, Board.untab more, ?_⟩
      simp only [untab_append, untab_of_not_mem (tab_not_mem_toText _)]
      rfl

/-- A routing line is taken without its tabs. -/
theorem IsRoutingLine.untab {numChannels output input : ℕ} {line : Text}
    (h : IsRoutingLine numChannels output line input) :
    TakenRouting numChannels output (untab line) input := by
  refine RoutingShape.untab ?_ (fun s hs => isIndent_untab hs.1) ?_ h
  · rintro s ⟨hs, -⟩ harrow
    have hlt : '<' ∈ Board.untab s := harrow.subset (by decide)
    exact absurd (isIndent_untab hs _ hlt) (by decide)
  · rintro input s ⟨word, trail, rfl, -, ⟨rfl, note, rfl, -⟩ | ⟨hlt, rfl⟩⟩
    · exact .inl ⟨rfl, rfl⟩
    · refine .inr ⟨hlt, Board.untab trail, ?_⟩
      simp only [untab_append, untab_of_not_mem (tab_not_mem_toText _)]
      rfl

/-- The routing is read exactly when the lines taken wrongly do not matter. -/
theorem routing_exact_iff {numChannels : ℕ} (hn : numChannels ≤ 4) (statusText : Text) :
    (∃ routing, parseRoutingStatus statusText numChannels = .ok routing ∧
      ∀ i < numChannels, ∀ target, channelValue routing i = some target ↔
        LastOf (IsRoutingLine numChannels i) (sectionLines '\n' (routingSection statusText)) target) ↔
    ∀ i < numChannels, Settled (TakenRouting numChannels i) (IsRoutingLine numChannels i)
      (sectionLines '\n' (routingSection statusText)) := by
  obtain ⟨result, hresult, -, hlast⟩ := parseRoutingStatus_reads statusText numChannels
  refine exact_iff_settled hresult hlast ?_ ?_ ?_ ?_
  · intro i hi l target
    rw [routingLine_eq_some_iff hn]
    exact and_iff_right hi
  · exact fun i hi l v w hv hw => takenRouting_unique hn hi hv hw
  · exact fun i hi l v w hv hw => takenRouting_unique hn hi hv.untab hw.untab
  · exact fun i hi l v w hv hw => takenRouting_unique hn hi hv.untab hw.untab

/-- **The status is read exactly** when the lines that are taken wrongly do not matter. -/
theorem statusExact_iff {numChannels : ℕ} (hn : numChannels ≤ 4) (statusText : Text) :
    StatusExact statusText numChannels ↔ StatusSettled statusText numChannels :=
  and_congr (gains_exact_iff hn statusText) (routing_exact_iff hn statusText)

theorem statusExact_iff_gain2 : StatusExact "Gains:\n  IN1: x2\n".toList 4 := by
  refine (statusExact_iff (le_refl 4) _).2 ⟨fun i hi => settled_of_iff ?_, fun i hi => ?_⟩
  · have hsection : sectionLines '\n' (gainSection "Gains:\n  IN1: x2\n".toList)
        = [[], "  IN1: x2".toList] := by decide
    have hblank : gainLine [] 4 0 ([] : Text).length = .ok none := by decide
    have hgain : gainLine "  IN1: x2".toList 4 0 "  IN1: x2".toList.length
        = .ok (some (0, .gain2)) := by decide
    have hproper : IsGainLine 0 "  IN1: x2".toList .gain2 :=
      ⟨"  ".toList, " ".toList, [], rfl, by simp [isIndent], by simp [Blanks, isIndent], by simp⟩
    intro l hl setting
    have htabs : untab l = l := by
      rw [hsection] at hl
      rcases List.mem_cons.1 hl with rfl | hl
      · rfl
      · obtain rfl := List.mem_singleton.1 hl
        decide
    refine ⟨fun htaken => ?_, fun hproper => htabs ▸ hproper.untab⟩
    have hread := (gainLine_eq_some_iff (le_refl 4)).2 ⟨hi, htaken⟩
    rw [hsection] at hl
    rcases List.mem_cons.1 hl with rfl | hl
    · rw [hblank] at hread
      cases hread
    · obtain rfl := List.mem_singleton.1 hl
      rw [hgain] at hread
      cases hread
      exact hproper
  · have hsection : sectionLines '\n' (routingSection "Gains:\n  IN1: x2\n".toList) = [] := by decide
    rw [hsection]
    exact settled_of_iff (by simp)

/-- The characters of a gain line. -/
theorem IsGainLine.mem {channel : ℕ} {line : Text} {setting : GainSetting}
    (h : IsGainLine channel line setting) {c : Char} (hc : c ∈ line) :
    isClosing c = true ∨ c ∈ "IN:x".toList ∨ c ∈ toText (channel + 1) ∨ c ∈ setting.label := by
  obtain ⟨lead, junk, trail, rfl, hlead, hjunk, htrail⟩ := h
  have hblank : ∀ s : Text, Blanks s → c ∈ s → isClosing c = true := by
    intro s hs hc
    rw [isClosing, hs c hc]
    rfl
  simp only [List.mem_append] at hc
  rcases hc with (hc | ((((hc | hc) | hc) | hc) | hc) | hc) | hc
  · exact .inl (hblank lead hlead hc)
  · have hword : "IN".toList ⊆ "IN:x".toList := by decide
    exact .inr (.inl (hword hc))
  · exact .inr (.inr (.inl hc))
  · have hword : ":".toList ⊆ "IN:x".toList := by decide
    exact .inr (.inl (hword hc))
  · exact .inl (hblank junk hjunk hc)
  · have hword : "x".toList ⊆ "IN:x".toList := by decide
    exact .inr (.inl (hword hc))
  · exact .inr (.inr (.inr hc))
  · exact .inl (htrail c hc)

/-- A gain line with something between the colon and the gain is taken. -/
theorem not_statusExact_junk : ¬StatusExact "Gains:\n  IN1: junkx2\n".toList 4 := by
  rintro ⟨⟨gains, hgains, hexact⟩, -⟩
  have hparse : parseGainStatus "Gains:\n  IN1: junkx2\n".toList 4
      = .ok (some [some .gain2, none, none, none]) := by decide
  rw [hparse] at hgains
  obtain rfl := Except.ok.inj hgains
  obtain ⟨before, line, after, hlines, hline, -⟩ := (hexact 0 (by decide) .gain2).1 rfl
  have hsection : sectionLines '\n' (gainSection "Gains:\n  IN1: junkx2\n".toList)
      = ["".toList, "  IN1: junkx2".toList] := by decide
  have hmem : line ∈ ["".toList, "  IN1: junkx2".toList] := by
    rw [← hsection, hlines]
    simp
  rcases List.mem_cons.1 hmem with rfl | hmem
  · have hx := hline
    obtain ⟨lead, junk, trail, heq, -⟩ := hx
    have hlen := congrArg List.length heq
    simp at hlen
  · obtain rfl := List.mem_singleton.1 hmem
    -- a proper line holds no `j`
    have hj := hline.mem (c := 'j') (by decide)
    exact absurd hj (by decide)

end Board

end Afm
