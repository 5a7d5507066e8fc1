/-
**What the status scanners take.**

`BoardStatus` reads the two scanners line by line.  This module says which lines they take: the gain
scanner looks for an `x` anywhere behind the colon, the routing scanner for an arrow anywhere behind
the number of the output, and neither looks at what follows a target.  From that it says what the
scanners return on every text, and that they never misuse the string or their arrays.

Main definitions:

* `Afm.Board.TakenGain`, `Afm.Board.TakenRouting` — the lines the scanners take;
* `Afm.Board.gainSection`, `Afm.Board.routingSection` — the parts of a status they look at.

Main results:

* `Afm.Board.gainLine_eq_some_iff`, `Afm.Board.routingLine_eq_some_iff` — a line is read exactly when
  it is taken;
* `Afm.Board.parseGainStatus_reads`, `Afm.Board.parseRoutingStatus_reads` — the last line taken for a
  channel counts;
* `Afm.Board.statusScanners_safe` — **the scanners are safe on every text**.
-/

import RedPitayaAfm.BoardStatus

set_option relaxedAutoImplicit false
set_option autoImplicit false

namespace Afm

namespace Board

open StringScan

theorem channelDigit_eq_some_iff {c : Char} {i : ℕ} :
    channelDigit c = some i ↔ i < 4 ∧ toText (i + 1) = [c] := by
  constructor
  · intro h
    unfold channelDigit at h
    split at h
    · rename_i hc
      obtain ⟨h₁, h₂⟩ := hc
      obtain rfl := Option.some.inj h
      have h₁' : 49 ≤ c.toNat := h₁
      have h₂' : c.toNat ≤ 52 := h₂
      have hof : Char.ofNat c.toNat = c := Char.ofNat_toNat c
      rw [← hof]
      generalize c.toNat = k at h₁' h₂' 
      interval_cases k <;> decide
    · cases h
  · rintro ⟨hi, htext⟩
    interval_cases i <;> (obtain rfl : _ = c := List.singleton_injective htext; decide)

/-! ### Gain lines -/

/-- The shape of a gain line, with what may stand between the colon and the gain and what behind
it. -/
def GainShape (gap : Text → Prop) (closing : Char → Bool) (channel : ℕ) (line : Text)
    (setting : GainSetting) : Prop :=
  ∃ lead junk trail, line = lead ++ ("IN".toList ++ toText (channel + 1) ++ ":".toList ++ junk
      ++ "x".toList ++ setting.label) ++ trail ∧
    (∀ c ∈ lead, isIndent c = true) ∧ gap junk ∧ ∀ c ∈ trail, closing c = true

/-- What the scanner takes for a gain line: it looks for the `x` wherever it is. -/
def TakenGain : ℕ → Text → GainSetting → Prop := GainShape (fun junk => 'x' ∉ junk) isTrailing

/-- The reading of a gain line between its surroundings. -/
theorem gainLine_parts {lead trail : Text} (hlead : ∀ c ∈ lead, isIndent c = true)
    (htrail : ∀ c ∈ trail, isTrailing c = true) {mid : Text}
    (hfirst : ∀ c ∈ mid.head?, isIndent c = false)
    (hlast : ∀ c ∈ (lead ++ mid).getLast?, isTrailing c = false) (numChannels : ℕ) :
    gainLine (lead ++ mid ++ trail) numChannels 0 (lead ++ mid ++ trail).length
      = .ok (if 4 ≤ mid.length ∧ mid[0]? = some 'I' ∧ mid[1]? = some 'N' ∧ mid[3]? = some ':' then
          ((mid[2]?.bind channelDigit).filter (· < numChannels)).bind fun channel =>
            (find ['x'] mid 4).bind fun xPos =>
              (gainFromLabel (mid.drop (xPos + 1))).map fun setting => (channel, setting)
        else none) := by
  have hstop := trimEnd_eq isTrailing hlast htrail
  have hstart := skip_eq isIndent hlead hfirst [] trail (n := (lead ++ mid).length - 0) (by simp)
  simp only [List.nil_append, List.length_nil, Nat.zero_add] at hstart
  have hdiff : diff (lead ++ mid).length lead.length = .ok mid.length := by
    rw [diff_eq_ok (by simp), List.length_append, Nat.add_sub_cancel_left]
  simp only [gainLine, hstop, ok_bind, hstart, hdiff]
  -- a line too short for its channel and the colon is skipped
  by_cases h4 : mid.length < 4
  · rw [if_pos h4, if_neg (fun h => absurd h.1 (by omega))]
    rfl
  · rw [if_neg h4]
    obtain ⟨c₀, c₁, c₂, c₃, rest, rfl⟩ : ∃ c₀ c₁ c₂ c₃ rest, mid = c₀ :: c₁ :: c₂ :: c₃ :: rest := by
      rcases mid with _ | ⟨c₀, _ | ⟨c₁, _ | ⟨c₂, _ | ⟨c₃, rest⟩⟩⟩⟩
      · exact absurd h4 (by simp)
      · exact absurd h4 (by simp)
      · exact absurd h4 (by simp)
      · exact absurd h4 (by simp)
      · exact ⟨c₀, c₁, c₂, c₃, rest, rfl⟩
    -- a read of the line is a read of its middle, moved by the indentation
    have hchar : ∀ k (hk : k < (c₀ :: c₁ :: c₂ :: c₃ :: rest).length),
        charAt (lead ++ c₀ :: c₁ :: c₂ :: c₃ :: rest ++ trail) (lead.length + k)
          = .ok (c₀ :: c₁ :: c₂ :: c₃ :: rest)[k] := by
      intro k hk
      rw [charAt_mid lead trail hk, charAt_eq_ok hk]
    have hx := find_mid lead (by simp) (fits_singleton 'x' (c₀ :: c₁ :: c₂ :: c₃ :: rest) trail)
      (show 4 ≤ (c₀ :: c₁ :: c₂ :: c₃ :: rest).length by simp) (le_refl _)
    rw [← List.length_append] at hx
    have h₀ := hchar 0 (by simp)
    rw [Nat.add_zero] at h₀
    rw [h₀, hchar 1 (by simp), hchar 2 (by simp), hchar 3 (by simp), hx]
    simp only [ok_bind, List.getElem_cons_zero, List.getElem_cons_succ]
    by_cases hc : c₀ = 'I' ∧ c₁ = 'N' ∧ c₃ = ':'
    · have hc' : 4 ≤ (c₀ :: c₁ :: c₂ :: c₃ :: rest).length ∧
          (c₀ :: c₁ :: c₂ :: c₃ :: rest)[0]? = some 'I' ∧
          (c₀ :: c₁ :: c₂ :: c₃ :: rest)[1]? = some 'N' ∧
          (c₀ :: c₁ :: c₂ :: c₃ :: rest)[3]? = some ':' := by
        simpa using hc
      have hdigit : (c₀ :: c₁ :: c₂ :: c₃ :: rest)[2]?.bind channelDigit = channelDigit c₂ := rfl
      rw [if_pos hc, if_pos hc', hdigit]
      cases (channelDigit c₂).filter (· < numChannels) with
      | none => rfl
      | some channel =>
          cases hp : find ['x'] (c₀ :: c₁ :: c₂ :: c₃ :: rest) 4 with
          | none => rfl
          | some xPos =>
              have hle := find_le (by simp) hp
              rw [List.length_singleton] at hle
              have hsize : diff (lead ++ c₀ :: c₁ :: c₂ :: c₃ :: rest).length (lead.length + xPos)
                  = .ok ((c₀ :: c₁ :: c₂ :: c₃ :: rest).length - xPos) := by
                rw [List.length_append, diff_add, diff_eq_ok (by omega)]
              have hone : diff ((c₀ :: c₁ :: c₂ :: c₃ :: rest).length - xPos) 1
                  = .ok ((c₀ :: c₁ :: c₂ :: c₃ :: rest).length - xPos - 1) := diff_eq_ok (by omega)
              rw [Option.filter_some, if_pos (by simpa using hle), Option.map_some]
              simp only [hsize, hone, ok_bind, Nat.add_assoc lead.length]
              rw [substr_mid lead trail (by omega), substr_eq_ok (by omega),
                List.take_of_length_le (by rw [List.length_drop]; omega)]
              rfl
    · rw [if_neg hc, if_neg (fun h => hc (by simpa using h))]
      rfl

theorem label_getLast (g : GainSetting) (s : Text) :
    ∀ c ∈ (s ++ g.label).getLast?, isTrailing c = false := by
  have hne : g.label ≠ [] := by
    have hempty : g.label.isEmpty = false := by cases g <;> rfl
    simpa using hempty
  have hall : g.label.all (fun c => !isTrailing c) = true := by cases g <;> rfl
  intro c hc
  rw [List.getLast?_append_of_ne_nil _ hne] at hc
  simpa using List.all_eq_true.1 hall c (List.mem_of_getLast? hc)

/-- **A gain line is what the scanner takes for one.** -/
theorem gainLine_eq_some_iff {numChannels : ℕ} (hn : numChannels ≤ 4) {line : Text} {channel : ℕ}
    {setting : GainSetting} :
    gainLine line numChannels 0 line.length = .ok (some (channel, setting)) ↔
      channel < numChannels ∧ TakenGain channel line setting := by
  constructor
  · intro h
    -- cut the line as the scanner does, and trace its answer back
    obtain ⟨xs, trail, rfl, hlast, htrail⟩ := exists_trimEnd isTrailing line
    obtain ⟨lead, mid, rfl, hlead, hfirst⟩ := exists_skip isIndent xs
    rw [gainLine_parts hlead htrail hfirst hlast] at h
    split at h
    · rename_i hmid
      obtain ⟨h4, h₀, h₁, h₃⟩ := hmid
      have h := Except.ok.inj h
      obtain ⟨channel', hchannel, h⟩ := Option.bind_eq_some_iff.1 h
      obtain ⟨xPos, hx, h⟩ := Option.bind_eq_some_iff.1 h
      obtain ⟨setting', hlabel, heq⟩ := Option.map_eq_some_iff.1 h
      obtain ⟨rfl, rfl⟩ := Prod.mk.inj heq
      obtain ⟨hdigit, hlt⟩ := Option.filter_eq_some_iff.1 hchannel
      obtain ⟨c₂, h₂, hdigit⟩ := Option.bind_eq_some_iff.1 hdigit
      obtain ⟨-, htext⟩ := channelDigit_eq_some_iff.1 hdigit
      obtain ⟨rest, rfl⟩ : ∃ rest, mid = 'I' :: 'N' :: c₂ :: ':' :: rest := by
        match mid, h4, h₀, h₁, h₂, h₃ with
        | c₀ :: c₁ :: c₂' :: c₃ :: rest, _, h₀, h₁, h₂, h₃ =>
            obtain ⟨rfl⟩ := h₀
            obtain ⟨rfl⟩ := h₁
            obtain ⟨rfl⟩ := h₂
            obtain ⟨rfl⟩ := h₃
            exact ⟨rest, rfl⟩
      rw [find_eq_add] at hx
      obtain ⟨p, hp, rfl⟩ := Option.map_eq_some_iff.1 hx
      obtain ⟨junk, after, rfl, rfl, hjunk⟩ := find_singleton_eq_some_iff.1 hp
      have hafter : ('I' :: 'N' :: c₂ :: ':' :: (junk ++ 'x' :: after)).drop (4 + junk.length + 1)
          = after := by
        rw [Nat.add_assoc, ← List.drop_drop]
        simp
      rw [hafter, gainFromLabel_eq_some_iff] at hlabel
      refine ⟨by simpa using hlt, lead, junk, trail, ?_, hlead, hjunk, htrail⟩
      rw [htext, hlabel]
      simp
    · cases h
  · rintro ⟨hlt, lead, junk, trail, rfl, hlead, hjunk, htrail⟩
    obtain ⟨c, hc⟩ : ∃ c, toText (channel + 1) = [c] := by
      have h4 : channel < 4 := by omega
      interval_cases channel <;> exact ⟨_, rfl⟩
    have hdigit : channelDigit c = some channel := channelDigit_eq_some_iff.2 ⟨by omega, hc⟩
    obtain ⟨mid, hmid⟩ : ∃ mid, mid = 'I' :: 'N' :: c :: ':' :: (junk ++ 'x' :: setting.label) := ⟨_, rfl⟩
    have hline : "IN".toList ++ toText (channel + 1) ++ ":".toList ++ junk ++ "x".toList ++ setting.label
        = mid := by
      rw [hc, hmid]
      simp
    -- a label ends in a digit, so exactly the closing blanks are cut
    have hlast := label_getLast setting (lead ++ 'I' :: 'N' :: c :: ':' :: (junk ++ ['x']))
    have hx : find ['x'] mid 4 = some (4 + junk.length) := by
      have hrest : find ['x'] (junk ++ 'x' :: setting.label) 0 = some junk.length :=
        find_singleton_eq_some_iff.2 ⟨junk, _, rfl, rfl, hjunk⟩
      have hdrop : mid.drop 4 = junk ++ 'x' :: setting.label := by rw [hmid]; rfl
      rw [find_eq_add, hdrop, hrest]
      rfl
    have hafter : mid.drop (4 + junk.length + 1) = setting.label := by
      rw [hmid, Nat.add_assoc, ← List.drop_drop]
      simp
    have hfirst : ∀ d ∈ mid.head?, isIndent d = false := by
      rw [hmid]
      rintro d ⟨⟩
      decide
    rw [hline, gainLine_parts hlead htrail hfirst (by rw [hmid]; simpa using hlast), hx,
      if_pos (by rw [hmid]; simp)]
    have h₂ : mid[2]?.bind channelDigit = some channel := by
      rw [hmid]
      exact hdigit
    rw [h₂, Option.filter_some, if_pos (by simpa using hlt), Option.bind_some, Option.bind_some,
      hafter, GainSetting.gainFromLabel_label]
    rfl

/-- Reading a gain line never fails. -/
theorem gainLine_ok (line : Text) (numChannels : ℕ) :
    ∃ found, gainLine line numChannels 0 line.length = .ok found ∧
      ∀ entry ∈ found, entry.1 < numChannels := by
  obtain ⟨xs, trail, rfl, hlast, htrail⟩ := exists_trimEnd isTrailing line
  obtain ⟨lead, mid, rfl, hlead, hfirst⟩ := exists_skip isIndent xs
  refine ⟨_, gainLine_parts hlead htrail hfirst hlast numChannels, ?_⟩
  intro entry hentry
  split at hentry
  · obtain ⟨channel, hchannel, hentry⟩ := Option.bind_eq_some_iff.1 hentry
    obtain ⟨xPos, -, hentry⟩ := Option.bind_eq_some_iff.1 hentry
    obtain ⟨setting, -, rfl⟩ := Option.map_eq_some_iff.1 hentry
    simpa using (Option.filter_eq_some_iff.1 hchannel).2
  · cases hentry

/-! ### Routing lines -/

/-- The shape of a routing line, with what may stand before the arrow, what behind it, and what says
the target. -/
def RoutingShape (gap gap' : Text → Prop) (target : ℕ → Text → Prop) (output : ℕ)
    (line : Text) (input : ℕ) : Prop :=
  ∃ lead junk spaces text, line = lead ++ ("OUT".toList ++ toText (output + 1) ++ junk
      ++ "<-".toList ++ spaces ++ text) ∧
    (∀ c ∈ lead, isIndent c = true) ∧ gap junk ∧ gap' spaces ∧ target input text

/-- The target in what follows the arrow and its spaces. -/
def TakenTarget (numChannels target : ℕ) (text : Text) : Prop :=
  (target = disconnected ∧ text.head? = some 'X') ∨
    (target < numChannels ∧ ∃ more, text = "IN".toList ++ toText (target + 1) ++ more)

/-- What the scanner takes for a routing line: it looks for the arrow wherever it is, and not behind
the target. -/
def TakenRouting (numChannels : ℕ) : ℕ → Text → ℕ → Prop :=
  RoutingShape (fun junk => ¬"<-".toList <:+: junk) (fun spaces => ∀ c ∈ spaces, (c == ' ') = true)
    (TakenTarget numChannels)

/-- The reading of a target between its surroundings. -/
theorem routingTarget_parts {before spaces text : Text} (hspaces : ∀ c ∈ spaces, (c == ' ') = true)
    (htext : ∀ c ∈ text.head?, (c == ' ') = false) {arrowPos : ℕ} (hbefore : before.length = arrowPos + 2)
    (numChannels : ℕ) :
    routingTarget (before ++ (spaces ++ text)) numChannels (before ++ (spaces ++ text)).length arrowPos
      = .ok (if text.head? = some 'X' then some disconnected
          else if text.take 2 = "IN".toList then
            (text[2]?.bind channelDigit).filter (· < numChannels)
          else none) := by
  have hskip := skip_eq (· == ' ') hspaces htext before [] (n := (spaces ++ text).length) (by simp)
  rw [List.append_nil, ← List.length_append] at hskip
  have hlen : (before ++ (spaces ++ text)).length - (arrowPos + 2) = (spaces ++ text).length := by
    rw [List.length_append, hbefore, Nat.add_sub_cancel_left]
  have hdiff : diff (before ++ (spaces ++ text)).length (before.length + spaces.length)
      = .ok text.length := by
    have hsum : (before ++ (spaces ++ text)).length
        = before.length + spaces.length + text.length := by
      simp only [List.length_append]
      omega
    rw [hsum, diff_eq_ok (by omega), Nat.add_sub_cancel_left]
  have hs : before ++ (spaces ++ text) = before ++ spaces ++ text ++ [] := by simp
  have hpos : before.length + spaces.length = (before ++ spaces).length + 0 := by simp
  unfold routingTarget
  rw [hlen, ← hbefore, hskip]
  simp only [ok_bind, hdiff]
  -- nothing behind the arrow is no target
  cases text with
  | nil =>
      rw [if_neg (by simp)]
      rfl
  | cons c rest =>
      have hc : charAt (before ++ (spaces ++ c :: rest)) (before.length + spaces.length) = .ok c := by
        rw [hs, hpos, charAt_mid _ _ (by simp), charAt_eq_ok (by simp)]
        rfl
      rw [if_pos (by simp), hc]
      simp only [ok_bind]
      by_cases hX : c = 'X'
      · subst hX
        rfl
      · have hX' : ¬(c :: rest).head? = some 'X' := by simpa using hX
        rw [if_neg hX, if_neg hX']
        -- three characters are needed for an input and its number
        by_cases h3 : (c :: rest).length < 3
        · have hnone : (c :: rest)[2]? = none := List.getElem?_eq_none (by omega)
          rw [if_pos h3, hnone]
          split <;> rfl
        · have hword : substr (before ++ (spaces ++ c :: rest)) (before.length + spaces.length) 2
              = .ok ((c :: rest).take 2) := by
            rw [hs, hpos, substr_mid _ _ (by omega), substr_eq_ok (by omega)]
            rfl
          have h2 : 2 < (c :: rest).length := by omega
          have hdigit : charAt (before ++ (spaces ++ c :: rest)) (before.length + spaces.length + 2)
              = .ok (c :: rest)[2] := by
            rw [hs, hpos, Nat.add_assoc, charAt_mid _ _ (by omega), charAt_eq_ok (by omega)]
          rw [if_neg h3, hword, hdigit, List.getElem?_eq_getElem (by omega)]
          simp only [ok_bind]
          split <;> rfl

/-- The reading of a routing line behind its indentation. -/
theorem routingLine_parts {lead mid : Text} (hlead : ∀ c ∈ lead, isIndent c = true)
    (hfirst : ∀ c ∈ mid.head?, isIndent c = false) (numChannels : ℕ) :
    routingLine (lead ++ mid) numChannels 0 (lead ++ mid).length
      = if 4 ≤ mid.length ∧ mid.take 3 = "OUT".toList then
          match mid[3]?.bind channelDigit, find "<-".toList mid 4 with
          | some output, some arrowPos =>
              if output < numChannels then do
                let target ← routingTarget mid numChannels mid.length arrowPos
                pure (target.map fun input => (output, input))
              else pure none
          | _, _ => pure none
        else pure none := by
  have hstart := skip_eq isIndent hlead hfirst [] [] (n := (lead ++ mid).length - 0) (by simp)
  simp only [List.nil_append, List.append_nil, List.length_nil, Nat.zero_add] at hstart
  have hdiff : diff (lead ++ mid).length lead.length = .ok mid.length := by
    rw [diff_eq_ok (by simp), List.length_append, Nat.add_sub_cancel_left]
  simp only [routingLine, ok_bind, hstart, hdiff]
  -- a line too short for its output is skipped
  by_cases h4 : mid.length < 4
  · rw [if_pos h4, if_neg (fun h => absurd h.1 (by omega))]
  · have hword : substr (lead ++ mid) lead.length 3 = .ok (mid.take 3) := by
      rw [substr_eq_ok (by simp), List.drop_left]
    have h3 : 3 < mid.length := by omega
    have hdigit : charAt (lead ++ mid) (lead.length + 3) = .ok mid[3] := by
      have h := charAt_mid lead [] h3
      rwa [List.append_nil, charAt_eq_ok h3] at h
    have hx := find_mid lead (show "<-".toList ≠ [] by decide)
      (fits_pair '<' '-' mid (show ([] : Text).head? ≠ some '-' by simp)) h3 (le_refl mid.length)
    rw [List.append_nil, ← List.length_append] at hx
    rw [if_neg h4, hword, hdigit, hx, List.getElem?_eq_getElem (by omega)]
    simp only [ok_bind, Option.bind_some]
    by_cases hout : mid.take 3 = "OUT".toList
    · rw [if_pos hout, if_pos ⟨by omega, hout⟩]
      cases channelDigit mid[3] with
      | none => rfl
      | some output =>
          cases hp : find "<-".toList mid 4 with
          | none => rfl
          | some arrowPos =>
              have hle : arrowPos + 2 ≤ mid.length := find_le (by decide) hp
              have htarget := routingTarget_mid lead mid [] numChannels hle
              rw [List.append_nil, ← List.length_append] at htarget
              rw [Option.filter_some, if_pos (by simpa using (show arrowPos < mid.length by omega)),
                Option.map_some]
              simp only [htarget]
    · rw [if_neg hout, if_neg (fun h => hout h.2)]

/-- The line behind its indentation, when the scanner looks at its target. -/
theorem out_parts {mid : Text} (h : 4 ≤ mid.length ∧ mid.take 3 = "OUT".toList) :
    ∃ c rest, mid = 'O' :: 'U' :: 'T' :: c :: rest := by
  obtain ⟨h4, hword⟩ := h
  match mid, h4, hword with
  | c₀ :: c₁ :: c₂ :: c₃ :: rest, _, hword =>
      have hword : [c₀, c₁, c₂] = ['O', 'U', 'T'] := hword
      obtain ⟨rfl, rfl, rfl⟩ : c₀ = 'O' ∧ c₁ = 'U' ∧ c₂ = 'T' := by simpa using hword
      exact ⟨c₃, rest, rfl⟩

/-- The arrow in the rest of a line. -/
theorem find_arrow {c : Char} {rest : Text} {arrowPos : ℕ} :
    find "<-".toList ('O' :: 'U' :: 'T' :: c :: rest) 4 = some arrowPos ↔
      ∃ junk after, rest = junk ++ '<' :: '-' :: after ∧ 4 + junk.length = arrowPos ∧
        ¬"<-".toList <:+: junk := by
  rw [find_eq_add]
  constructor
  · intro h
    obtain ⟨p, hp, rfl⟩ := Option.map_eq_some_iff.1 h
    obtain ⟨junk, after, hrest, rfl, hno⟩ := (find_pair_eq_some_iff (by decide)).1 hp
    exact ⟨junk, after, hrest, rfl, hno⟩
  · rintro ⟨junk, after, hrest, rfl, hno⟩
    exact Option.map_eq_some_iff.2 ⟨junk.length,
      (find_pair_eq_some_iff (by decide)).2 ⟨junk, after, hrest, rfl, hno⟩, rfl⟩

/-- The target behind the arrow of a line. -/
theorem routingTarget_behind {c : Char} {junk spaces text : Text}
    (hspaces : ∀ c ∈ spaces, (c == ' ') = true) (htext : ∀ c ∈ text.head?, (c == ' ') = false)
    (numChannels : ℕ) :
    routingTarget ('O' :: 'U' :: 'T' :: c :: (junk ++ '<' :: '-' :: (spaces ++ text))) numChannels
        ('O' :: 'U' :: 'T' :: c :: (junk ++ '<' :: '-' :: (spaces ++ text))).length (4 + junk.length)
      = .ok (if text.head? = some 'X' then some disconnected
          else if text.take 2 = "IN".toList then
            (text[2]?.bind channelDigit).filter (· < numChannels)
          else none) := by
  have hbefore : ('O' :: 'U' :: 'T' :: c :: (junk ++ ['<', '-'])).length = 4 + junk.length + 2 := by
    simp
    omega
  have h := routingTarget_parts hspaces htext hbefore numChannels
  simpa using h

/-- A target that is read. -/
theorem takenTarget_iff {numChannels target : ℕ} (hn : numChannels ≤ 4) {text : Text} :
    (if text.head? = some 'X' then some disconnected
      else if text.take 2 = "IN".toList then (text[2]?.bind channelDigit).filter (· < numChannels)
      else none) = some target ↔ TakenTarget numChannels target text := by
  by_cases hX : text.head? = some 'X'
  · rw [if_pos hX]
    constructor
    · intro h
      exact .inl ⟨(Option.some.inj h).symm, hX⟩
    · rintro (⟨rfl, -⟩ | ⟨-, more, rfl⟩)
      · rfl
      · cases hX
  rw [if_neg hX]
  constructor
  · intro h
    split at h
    · rename_i hword
      obtain ⟨hdigit, hlt⟩ := Option.filter_eq_some_iff.1 h
      obtain ⟨c, hc, hdigit⟩ := Option.bind_eq_some_iff.1 hdigit
      refine .inr ⟨by simpa using hlt, text.drop 3, ?_⟩
      rw [(channelDigit_eq_some_iff.1 hdigit).2, ← hword]
      have hdrop := List.drop_eq_getElem_cons (List.getElem?_eq_some_iff.1 hc).1
      rw [(List.getElem?_eq_some_iff.1 hc).2] at hdrop
      rw [List.append_assoc]
      exact (List.take_append_drop 2 text).symm.trans (congrArg (text.take 2 ++ ·) hdrop)
    · cases h
  · rintro (⟨-, hX'⟩ | ⟨hlt, more, rfl⟩)
    · exact absurd hX' hX
    · obtain ⟨c, hc⟩ : ∃ c, toText (target + 1) = [c] := by
        have h4 : target < 4 := by omega
        interval_cases target <;> exact ⟨_, rfl⟩
      have hdigit : channelDigit c = some target := channelDigit_eq_some_iff.2 ⟨by omega, hc⟩
      have hword : ("IN".toList ++ [c] ++ more).take 2 = "IN".toList := rfl
      rw [hc, if_pos hword]
      show (channelDigit c).filter (· < numChannels) = some target
      rw [hdigit, Option.filter_some, if_pos (by simpa using hlt)]

/-- **A routing line is what the scanner takes for one.** -/
theorem routingLine_eq_some_iff {numChannels : ℕ} (hn : numChannels ≤ 4) {line : Text}
    {output target : ℕ} :
    routingLine line numChannels 0 line.length = .ok (some (output, target)) ↔
      output < numChannels ∧ TakenRouting numChannels output line target := by
  constructor
  · intro h
    obtain ⟨lead, mid, rfl, hlead, hfirst⟩ := exists_skip isIndent line
    rw [routingLine_parts hlead hfirst] at h
    split at h
    case isFalse => cases h
    rename_i hmid
    obtain ⟨c, rest, rfl⟩ := out_parts hmid
    split at h
    case h_2 => cases h
    rename_i output' arrowPos hdigit hp
    split at h
    case isFalse => cases h
    rename_i hlt
    obtain ⟨junk, after, rfl, rfl, hno⟩ := find_arrow.1 hp
    obtain ⟨spaces, text, rfl, hspaces, htext⟩ := exists_skip (· == ' ') after
    rw [routingTarget_behind hspaces htext, ok_bind] at h
    obtain ⟨target', htarget, heq⟩ := Option.map_eq_some_iff.1 (Except.ok.inj h)
    obtain ⟨rfl, rfl⟩ := Prod.mk.inj heq
    refine ⟨hlt, lead, junk, spaces, text, ?_, hlead, hno, hspaces, (takenTarget_iff hn).1 htarget⟩
    rw [(channelDigit_eq_some_iff.1 hdigit).2]
    simp
  · rintro ⟨hlt, lead, junk, spaces, text, rfl, hlead, hno, hspaces, htaken⟩
    obtain ⟨c, hc⟩ : ∃ c, toText (output + 1) = [c] := by
      have h4 : output < 4 := by omega
      interval_cases output <;> exact ⟨_, rfl⟩
    have hdigit : channelDigit c = some output := channelDigit_eq_some_iff.2 ⟨by omega, hc⟩
    have hmid : "OUT".toList ++ toText (output + 1) ++ junk ++ "<-".toList ++ spaces ++ text
        = 'O' :: 'U' :: 'T' :: c :: (junk ++ '<' :: '-' :: (spaces ++ text)) := by
      rw [hc]
      simp
    -- the target begins with no space, so the spaces end where it begins
    have htext : ∀ c ∈ text.head?, (c == ' ') = false := by
      rcases htaken with ⟨-, hX⟩ | ⟨-, more, rfl⟩
      · rw [hX]
        rintro c ⟨⟩
        rfl
      · rintro c ⟨⟩
        rfl
    have hfirst : ∀ d ∈ ('O' :: 'U' :: 'T' :: c :: (junk ++ '<' :: '-' :: (spaces ++ text))).head?,
        isIndent d = false := by
      rintro d ⟨⟩
      rfl
    have hp := (find_arrow (c := c)).2 ⟨junk, spaces ++ text, rfl, rfl, hno⟩
    have h₃ : ('O' :: 'U' :: 'T' :: c :: (junk ++ '<' :: '-' :: (spaces ++ text)))[3]?.bind channelDigit
        = some output := hdigit
    rw [hmid, routingLine_parts hlead hfirst, if_pos ⟨by simp, rfl⟩, hp, h₃]
    simp only [if_pos hlt]
    rw [routingTarget_behind hspaces htext, ok_bind, (takenTarget_iff hn).2 htaken]
    rfl

/-- Reading a routing line never fails. -/
theorem routingLine_ok (line : Text) (numChannels : ℕ) :
    ∃ found, routingLine line numChannels 0 line.length = .ok found ∧
      ∀ entry ∈ found, entry.1 < numChannels := by
  obtain ⟨lead, mid, rfl, hlead, hfirst⟩ := exists_skip isIndent line
  rw [routingLine_parts hlead hfirst]
  split
  case isFalse => exact ⟨none, rfl, by simp⟩
  rename_i hmid
  obtain ⟨c, rest, rfl⟩ := out_parts hmid
  split
  case h_2 => exact ⟨none, rfl, by simp⟩
  rename_i output arrowPos hdigit hp
  split
  case isFalse => exact ⟨none, rfl, by simp⟩
  rename_i hlt
  obtain ⟨junk, after, rfl, rfl, -⟩ := find_arrow.1 hp
  obtain ⟨spaces, text, rfl, hspaces, htext⟩ := exists_skip (· == ' ') after
  rw [routingTarget_behind hspaces htext, ok_bind]
  refine ⟨_, rfl, ?_⟩
  intro entry hentry
  obtain ⟨target, -, rfl⟩ := Option.map_eq_some_iff.1 hentry
  exact hlt

/-! ### The sections -/

section Record

variable {β : Type} {read : Text → Except Misuse (Option (ℕ × β))} {numChannels : ℕ}

/-- The lines of a section are recorded one after the other, and what is recorded for a channel is
what its last line says. -/
theorem foldlM_record (hread : ∀ l, ∃ found, read l = .ok found ∧ ∀ entry ∈ found, entry.1 < numChannels)
    (ls : List Text) :
    ∃ out, ls.foldlM (fun out l => do record (← read l) out) (List.replicate numChannels none)
        = .ok out ∧ out.length = numChannels ∧
      ∀ i < numChannels, ∀ v, out[i]? = some (some v) ↔
        LastOf (fun l v => read l = .ok (some (i, v))) ls v := by
  -- induction from the last line, which is the one that counts
  induction ls using List.reverseRecOn with
  | nil =>
      refine ⟨_, rfl, List.length_replicate, ?_⟩
      intro i hi v
      simp [hi, not_lastOf_nil]
  | append_singleton ls l ih =>
      obtain ⟨out, hout, hlen, hlast⟩ := ih
      obtain ⟨found, hfound, hlt⟩ := hread l
      rw [List.foldlM_append, hout, ok_bind, List.foldlM_cons, hfound, ok_bind]
      simp only [lastOf_concat, hfound]
      cases found with
      | none =>
          refine ⟨out, rfl, hlen, ?_⟩
          intro i hi v
          simpa using hlast i hi v
      | some entry =>
          obtain ⟨channel, value⟩ := entry
          have hchannel : channel < out.length := by
            rw [hlen]
            exact hlt _ rfl
          refine ⟨out.set channel (some value), ?_, by rw [List.length_set, hlen], ?_⟩
          · rw [record, write_eq_ok hchannel]
            rfl
          · intro i hi v
            by_cases hi' : channel = i
            · subst hi'
              rw [List.getElem?_set_self hchannel]
              simp
            · rw [List.getElem?_set_ne hi', hlast i hi v]
              simp [hi']

end Record

/-- The text behind the first `Gains:`. -/
def gainSection (statusText : Text) : Text :=
  match find "Gains:".toList statusText 0 with
  | none => []
  | some gainsPos => statusText.drop (gainsPos + 6)

/-- The text between the first `Routing:` and the next `Gains:`. -/
def routingSection (statusText : Text) : Text :=
  match find "Routing:".toList statusText 0 with
  | none => []
  | some routingPos =>
      (statusText.drop (routingPos + 8)).take
        ((find "Gains:".toList statusText routingPos).getD statusText.length - (routingPos + 8))

/-- What is read for a channel; nothing when the channel is not valid. -/
def channelValue {β : Type} (result : Option (List (Option β))) (channel : ℕ) : Option β :=
  (result.bind fun out => out[channel]?).join

/-- **The gains that are read**: the scanner ends, and for each channel its last line counts. -/
theorem parseGainStatus_reads (statusText : Text) (numChannels : ℕ) :
    ∃ result, parseGainStatus statusText numChannels = .ok result ∧
      (∀ out ∈ result, out.length = numChannels) ∧
      ∀ i < numChannels, ∀ v, channelValue result i = some v ↔
        LastOf (fun l v => gainLine l numChannels 0 l.length = .ok (some (i, v)))
          (sectionLines '\n' (gainSection statusText)) v := by
  cases hfind : find "Gains:".toList statusText 0 with
  | none =>
      refine ⟨none, by rw [parseGainStatus, hfind]; rfl, by simp, ?_⟩
      intro i _ v
      rw [gainSection, hfind]
      exact iff_of_false (by simp [channelValue]) (not_lastOf_nil _ _)
  | some gainsPos =>
      have hle : gainsPos + 6 ≤ statusText.length := find_le (by decide) hfind
      have htext : statusText.take (gainsPos + 6) ++ statusText.drop (gainsPos + 6) = statusText :=
        List.take_append_drop _ _
      have hsplit := hfind
      rw [← htext] at hsplit
      have hparse := parseGainStatus_eq numChannels hsplit (by rw [List.length_take]; omega)
      obtain ⟨out, hout, hlen, hlast⟩ := foldlM_record (fun l => gainLine_ok l numChannels)
        (sectionLines '\n' (statusText.drop (gainsPos + 6)))
      have hfold : (sectionLines '\n' (statusText.drop (gainsPos + 6))).foldlM (gainStep numChannels)
          (List.replicate numChannels none) = .ok out := hout
      rw [htext, hfold] at hparse
      refine ⟨some out, hparse, by simpa using hlen, ?_⟩
      intro i hi v
      rw [gainSection, hfind]
      simp only [← hlast i hi v, channelValue, Option.bind_some]
      cases out[i]? <;> simp

/-- The end of the routing section. -/
theorem routingSection_end {statusText : Text} {routingPos : ℕ}
    (hfind : find "Routing:".toList statusText 0 = some routingPos) :
    ∃ after, statusText = statusText.take (routingPos + 8) ++ routingSection statusText ++ after ∧
      (find "Gains:".toList statusText routingPos).getD statusText.length
        = routingPos + 8 + (routingSection statusText).length ∧ after.head? ≠ some '-' := by
  have hle : routingPos + 8 ≤ statusText.length := find_le (by decide) hfind
  obtain ⟨stop, hstop⟩ : ∃ stop, stop
      = (find "Gains:".toList statusText routingPos).getD statusText.length := ⟨_, rfl⟩
  -- the section ends behind its title and never inside an arrow
  have hbounds : routingPos + 8 ≤ stop ∧ stop ≤ statusText.length ∧
      (statusText.drop stop).head? ≠ some '-' := by
    cases hgains : find "Gains:".toList statusText routingPos with
    | none =>
        rw [hgains, Option.getD_none] at hstop
        rw [hstop, List.drop_length]
        exact ⟨hle, le_refl _, by simp⟩
    | some gainsPos =>
        rw [hgains, Option.getD_some] at hstop
        have hle' : gainsPos + 6 ≤ statusText.length := find_le (by decide) hgains
        rw [find_eq_add] at hgains
        obtain ⟨p, hp, rfl⟩ := Option.map_eq_some_iff.1 hgains
        obtain ⟨between, after, hdrop, rfl, -⟩ := find_eq_some_iff.1 hp
        obtain ⟨start, rest, htext, rfl, -⟩ := find_eq_some_iff.1 hfind
        rw [htext, List.drop_left] at hdrop
        have hhead : (statusText.drop (start.length + between.length)).head? = some 'G' := by
          rw [← List.drop_drop, htext, List.drop_left, hdrop, List.drop_left]
          rfl
        refine ⟨?_, by omega, ?_⟩
        · -- the word `Routing:` has no `G`
          by_contra hlt
          have hlt' : between.length < 8 := by omega
          have hget := congrArg (fun s => s[between.length]?) hdrop
          simp only [List.getElem?_append_right (le_refl between.length), Nat.sub_self] at hget
          rw [List.getElem?_append_left (by simpa using hlt')] at hget
          have hG : 'G' ∈ "Routing:".toList := by
            refine List.mem_of_getElem? (i := between.length) (hget.trans ?_)
            rfl
          exact absurd hG (by decide)
        · rw [hstop, hhead]
          decide
  obtain ⟨h₁, h₂, h₃⟩ := hbounds
  have hsection : routingSection statusText
      = (statusText.drop (routingPos + 8)).take (stop - (routingPos + 8)) := by
    rw [routingSection, hfind, hstop]
  have hsplit := List.take_append_drop (stop - (routingPos + 8)) (statusText.drop (routingPos + 8))
  rw [List.drop_drop, ← hsection, Nat.add_sub_cancel' h₁] at hsplit
  refine ⟨statusText.drop stop, ?_, ?_, h₃⟩
  · rw [List.append_assoc, hsplit, List.take_append_drop]
  · rw [← hstop, hsection, List.length_take, List.length_drop]
    omega

/-- **The routing that is read**: the scanner ends, and for each output its last line counts. -/
theorem parseRoutingStatus_reads (statusText : Text) (numChannels : ℕ) :
    ∃ result, parseRoutingStatus statusText numChannels = .ok result ∧
      (∀ out ∈ result, out.length = numChannels) ∧
      ∀ i < numChannels, ∀ v, channelValue result i = some v ↔
        LastOf (fun l v => routingLine l numChannels 0 l.length = .ok (some (i, v)))
          (sectionLines '\n' (routingSection statusText)) v := by
  cases hfind : find "Routing:".toList statusText 0 with
  | none =>
      refine ⟨none, by rw [parseRoutingStatus, hfind]; rfl, by simp, ?_⟩
      intro i _ v
      rw [routingSection, hfind]
      exact iff_of_false (by simp [channelValue]) (not_lastOf_nil _ _)
  | some routingPos =>
      have hle : routingPos + 8 ≤ statusText.length := find_le (by decide) hfind
      obtain ⟨after, htext, hend, hafter⟩ := routingSection_end hfind
      have hlen : (statusText.take (routingPos + 8)).length = routingPos + 8 := by
        rw [List.length_take]
        omega
      have hend' : (find "Gains:".toList
          (statusText.take (routingPos + 8) ++ routingSection statusText ++ after) routingPos).getD
          (statusText.take (routingPos + 8) ++ routingSection statusText ++ after).length
          = (statusText.take (routingPos + 8)).length + (routingSection statusText).length := by
        rw [← htext, hend, hlen]
      have hparse := parseRoutingStatus_eq numChannels (by rw [← htext]; exact hfind) hlen hend' hafter
      obtain ⟨out, hout, hlen, hlast⟩ := foldlM_record (fun l => routingLine_ok l numChannels)
        (sectionLines '\n' (routingSection statusText))
      have hfold : (sectionLines '\n' (routingSection statusText)).foldlM (routingStep numChannels)
          (List.replicate numChannels none) = .ok out := hout
      rw [← htext, hfold] at hparse
      refine ⟨some out, hparse, by simpa using hlen, ?_⟩
      intro i hi v
      simp only [← hlast i hi v, channelValue, Option.bind_some]
      cases out[i]? <;> simp

/-- **The status scanners are safe on every text**: both end, without an index at or past the size of
the text, without a difference that wraps and without a write outside their arrays. -/
theorem statusScanners_safe (statusText : Text) (numChannels : ℕ) :
    (∃ gains, parseGainStatus statusText numChannels = .ok gains ∧
      ∀ out ∈ gains, out.length = numChannels) ∧
    ∃ routing, parseRoutingStatus statusText numChannels = .ok routing ∧
      ∀ out ∈ routing, out.length = numChannels := by
  obtain ⟨gains, hgains, hlen, -⟩ := parseGainStatus_reads statusText numChannels
  obtain ⟨routing, hrouting, hlen', -⟩ := parseRoutingStatus_reads statusText numChannels
  exact ⟨⟨gains, hgains, hlen⟩, routing, hrouting, hlen'⟩

end Board

end Afm
