/-
**Reading the status of the board.**

`BoardProtocol::parseGainStatus` and `BoardProtocol::parseRoutingStatus` scan the text the board
prints on `STATUS` by position.  A gain line is `IN<n>: x<label>` behind `Gains:`, a routing line is
`OUT<n> <- IN<m>` or `OUT<n> <- X` between `Routing:` and `Gains:`.

Main definitions:

* `Afm.Board.gainLine`, `Afm.Board.routingLine` — what one line says;
* `Afm.Board.parseGainStatus`, `Afm.Board.parseRoutingStatus` — the two scanners.

Main results:

* `Afm.Board.gainLine_mid`, `Afm.Board.routingLine_mid` — a line is read without its surroundings;
* `Afm.Board.parseGainStatus_eq`, `Afm.Board.parseRoutingStatus_eq` — the scanners read their
  section line by line, the last line for a channel counts.
-/

import RedPitayaAfm.StringScan
import RedPitayaAfm.Board

set_option relaxedAutoImplicit false
set_option autoImplicit false

namespace Afm

namespace Board

open StringScan

/-- The characters in front of a line. -/
def isIndent (c : Char) : Bool := c == ' ' || c == '\t'

/-- The characters behind a gain line. -/
def isTrailing (c : Char) : Bool := c == '\r' || c == ' '

/-- A channel number as the board prints it, from zero. -/
def channelDigit (c : Char) : Option ℕ :=
  if '1' ≤ c ∧ c ≤ '4' then some (c.toNat - '1'.toNat) else none

theorem ok_bind {ε α β : Type} (a : α) (f : α → Except ε β) : (Except.ok a >>= f) = f a := rfl

theorem map_ok {ε α β : Type} (a : α) (f : α → β) :
    (f <$> (Except.ok a : Except ε α)) = .ok (f a) := rfl

/-- Lines with the value of a channel each: what was read so far, and one line more. -/
def record {β : Type} (found : Option (ℕ × β)) (out : List (Option β)) :
    Except Misuse (List (Option β)) :=
  match found with
  | none => pure out
  | some (channel, value) => write out channel (some value)

/-! ### Gains -/

/-- The gain in the line from `pos` to `lineEnd`. -/
def gainLine (statusText : Text) (numChannels pos lineEnd : ℕ) :
    Except Misuse (Option (ℕ × GainSetting)) := do
  let stop ← trimEnd isTrailing statusText pos lineEnd
  let start ← skip isIndent statusText stop (stop - pos) pos
  if (← diff stop start) < 4 then pure none
  else do
    let c₀ ← charAt statusText start
    let c₁ ← charAt statusText (start + 1)
    let c₂ ← charAt statusText (start + 2)
    let c₃ ← charAt statusText (start + 3)
    if c₀ = 'I' ∧ c₁ = 'N' ∧ c₃ = ':' then
      match (channelDigit c₂).filter (· < numChannels) with
      | none => pure none
      | some channel =>
          -- the search runs on behind the line, and a hit there counts as none
          match (find ['x'] statusText (start + 4)).filter (· < stop) with
          | none => pure none
          | some xPos => do
              let size ← diff stop xPos
              let size ← diff size 1
              let label ← substr statusText (xPos + 1) size
              pure ((gainFromLabel label).map fun setting => (channel, setting))
    else pure none

/-- `parseGainStatus`: nothing when there is no section, else the gain read for each channel. -/
def parseGainStatus (statusText : Text) (numChannels : ℕ) :
    Except Misuse (Option (List (Option GainSetting))) :=
  match find "Gains:".toList statusText 0 with
  | none => pure none
  | some gainsPos => do
      let out ← lineLoop '\n' statusText statusText.length
        (fun pos lineEnd out => do
          let found ← gainLine statusText numChannels pos lineEnd
          record found out)
        statusText.length (gainsPos + 6) (List.replicate numChannels none)
      pure (some out)

/-- A gain line is read without its surroundings. -/
theorem gainLine_mid (before l after : Text) (numChannels : ℕ) :
    gainLine (before ++ l ++ after) numChannels before.length (before.length + l.length)
      = gainLine l numChannels 0 l.length := by
  obtain ⟨stop, hstop, hle, -⟩ := trimEnd_ok isTrailing (s := l) 0 (le_refl l.length)
  obtain ⟨start, hstart, -, hst⟩ := skip_ok isIndent hle (Nat.zero_le stop) (stop - 0)
  have hstop' := trimEnd_mid before after isTrailing (le_refl l.length)
  have hstart' := skip_mid before after isIndent hle (stop - 0) 0
  rw [hstop] at hstop'
  rw [hstart, Nat.add_zero] at hstart'
  have hsub : before.length + stop - before.length = stop - 0 := by omega
  simp only [gainLine, hstop, hstop', ok_bind, map_ok, hsub, hstart, hstart', diff_add,
    diff_eq_ok hst]
  by_cases h4 : stop - start < 4
  · simp only [if_pos h4]
  · simp only [if_neg h4, Nat.add_assoc before.length]
    rw [charAt_mid before after (i := start) (by omega),
      charAt_mid before after (i := start + 1) (by omega),
      charAt_mid before after (i := start + 2) (by omega),
      charAt_mid before after (i := start + 3) (by omega),
      find_mid before (by simp) (fits_singleton _ _ _) (by omega) hle]
    -- the four characters that are read are the same, and what follows depends on them
    congr 1
    funext c₀
    congr 1
    funext c₁
    congr 1
    funext c₂
    congr 1
    funext c₃
    by_cases hc : c₀ = 'I' ∧ c₁ = 'N' ∧ c₃ = ':'
    · simp only [if_pos hc]
      cases (channelDigit c₂).filter (· < numChannels) with
      | none => rfl
      | some channel =>
          cases hx : (find ['x'] l (start + 4)).filter (· < stop) with
          | none => rfl
          | some xPos =>
              have hlt : xPos < stop := by
                have h := (Option.filter_eq_some_iff.1 hx).2
                simpa using h
              simp only [Option.map_some, diff_add, diff_eq_ok (Nat.le_of_lt hlt), ok_bind,
                diff_eq_ok (show 1 ≤ stop - xPos by omega), Nat.add_assoc before.length]
              rw [substr_mid before after (by omega)]
    · simp only [if_neg hc]

/-! ### Routing -/

/-- The target behind an arrow. -/
def routingTarget (statusText : Text) (numChannels lineEnd arrowPos : ℕ) :
    Except Misuse (Option ℕ) := do
  let target ← skip (· == ' ') statusText lineEnd (lineEnd - (arrowPos + 2)) (arrowPos + 2)
  if target < lineEnd then do
    let c ← charAt statusText target
    if c = 'X' then pure (some disconnected)
    else if (← diff lineEnd target) < 3 then pure none
    else do
      let word ← substr statusText target 2
      let digit ← charAt statusText (target + 2)
      if word = "IN".toList then pure ((channelDigit digit).filter (· < numChannels))
      else pure none
  else do
    -- the length of the rest is taken here too
    let _ ← diff lineEnd target
    pure none

/-- The routing in the line from `pos` to `lineEnd`. -/
def routingLine (statusText : Text) (numChannels pos lineEnd : ℕ) :
    Except Misuse (Option (ℕ × ℕ)) := do
  let start ← skip isIndent statusText lineEnd (lineEnd - pos) pos
  if (← diff lineEnd start) < 4 then pure none
  else do
    let word ← substr statusText start 3
    let digit ← charAt statusText (start + 3)
    if word = "OUT".toList then
      -- the search comes before the number is compared with the channels
      match channelDigit digit with
      | none => pure none
      | some output =>
          match (find "<-".toList statusText (start + 4)).filter (· < lineEnd) with
          | none => pure none
          | some arrowPos =>
              if output < numChannels then do
                let target ← routingTarget statusText numChannels lineEnd arrowPos
                pure (target.map fun input => (output, input))
              else pure none
    else pure none

/-- `parseRoutingStatus`: nothing when there is no section, else the input read for each output. -/
def parseRoutingStatus (statusText : Text) (numChannels : ℕ) :
    Except Misuse (Option (List (Option ℕ))) :=
  match find "Routing:".toList statusText 0 with
  | none => pure none
  | some routingPos => do
      let sectionEnd := (find "Gains:".toList statusText routingPos).getD statusText.length
      let out ← lineLoop '\n' statusText sectionEnd
        (fun pos lineEnd out => do
          let found ← routingLine statusText numChannels pos lineEnd
          record found out)
        statusText.length (routingPos + 8) (List.replicate numChannels none)
      pure (some out)

theorem routingTarget_mid (before l after : Text) (numChannels : ℕ) {arrowPos : ℕ}
    (h : arrowPos + 2 ≤ l.length) :
    routingTarget (before ++ l ++ after) numChannels (before.length + l.length)
        (before.length + arrowPos)
      = routingTarget l numChannels l.length arrowPos := by
  obtain ⟨target, htarget, -, hle⟩ :=
    skip_ok (· == ' ') (s := l) (le_refl l.length) h (l.length - (arrowPos + 2))
  have htarget' := skip_mid before after (· == ' ') (le_refl l.length)
    (l.length - (arrowPos + 2)) (arrowPos + 2)
  rw [htarget] at htarget'
  have hsub : before.length + l.length - (before.length + (arrowPos + 2))
      = l.length - (arrowPos + 2) := by omega
  simp only [routingTarget, Nat.add_assoc before.length, hsub, htarget, htarget', ok_bind, map_ok,
    diff_add, diff_eq_ok hle]
  by_cases hlt : target < l.length
  · simp only [if_pos hlt, if_pos (Nat.add_lt_add_left hlt before.length),
      charAt_mid before after hlt]
    congr 1
    funext c
    by_cases hX : c = 'X'
    · simp only [if_pos hX]
    · simp only [if_neg hX]
      by_cases h3 : l.length - target < 3
      · simp only [if_pos h3]
      · simp only [if_neg h3]
        rw [substr_mid before after (by omega), charAt_mid before after (by omega)]
  · simp only [if_neg hlt, if_neg (show ¬before.length + target < before.length + l.length by omega)]

/-- A routing line is read without its surroundings. -/
theorem routingLine_mid (before l : Text) {after : Text} (hafter : after.head? ≠ some '-')
    (numChannels : ℕ) :
    routingLine (before ++ l ++ after) numChannels before.length (before.length + l.length)
      = routingLine l numChannels 0 l.length := by
  obtain ⟨start, hstart, -, hst⟩ :=
    skip_ok isIndent (s := l) (le_refl l.length) (Nat.zero_le _) (l.length - 0)
  have hstart' := skip_mid before after isIndent (le_refl l.length) (l.length - 0) 0
  rw [hstart, Nat.add_zero] at hstart'
  have hsub : before.length + l.length - before.length = l.length - 0 := by omega
  simp only [routingLine, hsub, hstart, hstart', ok_bind, map_ok, diff_add, diff_eq_ok hst]
  by_cases h4 : l.length - start < 4
  · simp only [if_pos h4]
  · simp only [if_neg h4, Nat.add_assoc before.length]
    have hfits : Fits "<-".toList l after := fits_pair '<' '-' l hafter
    rw [substr_mid before after (by omega), charAt_mid before after (i := start + 3) (by omega),
      find_mid before (by simp) hfits (by omega) (le_refl l.length)]
    congr 1
    funext word
    congr 1
    funext digit
    by_cases hw : word = "OUT".toList
    · simp only [if_pos hw]
      cases channelDigit digit with
      | none => rfl
      | some output =>
          cases hx : (find "<-".toList l (start + 4)).filter (· < l.length) with
          | none => rfl
          | some arrowPos =>
              have hlt : arrowPos + 2 ≤ l.length := by
                have h := find_le (by simp) (Option.filter_eq_some_iff.1 hx).1
                simpa using h
              simp only [Option.map_some]
              rw [routingTarget_mid before l after numChannels hlt]
    · simp only [if_neg hw]

/-! ### The scanners line by line -/

/-- One gain line more. -/
def gainStep (numChannels : ℕ) (out : List (Option GainSetting)) (line : Text) :
    Except Misuse (List (Option GainSetting)) := do
  let found ← gainLine line numChannels 0 line.length
  record found out

/-- One routing line more. -/
def routingStep (numChannels : ℕ) (out : List (Option ℕ)) (line : Text) :
    Except Misuse (List (Option ℕ)) := do
  let found ← routingLine line numChannels 0 line.length
  record found out

/-- **The gain section** is read line by line. -/
theorem parseGainStatus_eq {before sec : Text} {gainsPos : ℕ} (numChannels : ℕ)
    (hfind : find "Gains:".toList (before ++ sec) 0 = some gainsPos)
    (hpos : before.length = gainsPos + 6) :
    parseGainStatus (before ++ sec) numChannels
      = some <$> (sectionLines '\n' sec).foldlM (gainStep numChannels)
          (List.replicate numChannels none) := by
  have hloop : lineLoop '\n' (before ++ sec) (before ++ sec).length
      (fun pos lineEnd out => do
        let found ← gainLine (before ++ sec) numChannels pos lineEnd
        record found out)
      (before ++ sec).length before.length (List.replicate numChannels none)
        = (sectionLines '\n' sec).foldlM (gainStep numChannels)
          (List.replicate numChannels none) := by
    refine lineLoop_eq [] (by simp) (by simp) (by simp) ?_
    intro before' l tail out hs hl _
    simp only [hs, gainLine_mid, gainStep]
  simp only [parseGainStatus, hfind, ← hpos, hloop]
  rfl

/-- **The routing section** is read line by line. -/
theorem parseRoutingStatus_eq {before sec after : Text} {routingPos : ℕ} (numChannels : ℕ)
    (hfind : find "Routing:".toList (before ++ sec ++ after) 0 = some routingPos)
    (hpos : before.length = routingPos + 8)
    (hend : (find "Gains:".toList (before ++ sec ++ after) routingPos).getD
      (before ++ sec ++ after).length = before.length + sec.length)
    (hafter : after.head? ≠ some '-') :
    parseRoutingStatus (before ++ sec ++ after) numChannels
      = some <$> (sectionLines '\n' sec).foldlM (routingStep numChannels)
          (List.replicate numChannels none) := by
  have hloop : lineLoop '\n' (before ++ sec ++ after) (before.length + sec.length)
      (fun pos lineEnd out => do
        let found ← routingLine (before ++ sec ++ after) numChannels pos lineEnd
        record found out)
      (before ++ sec ++ after).length before.length (List.replicate numChannels none)
        = (sectionLines '\n' sec).foldlM (routingStep numChannels)
          (List.replicate numChannels none) := by
    refine lineLoop_eq after rfl rfl (by simp; omega) ?_
    intro before' l tail out hs hl htail
    -- a line feed follows the line, or the end of the section
    have hhead : tail.head? ≠ some '-' := by
      rcases htail with rfl | ⟨t, rfl⟩
      · exact hafter
      · simp
    simp only [hs, routingLine_mid before' l hhead, routingStep]
  simp only [parseRoutingStatus, hfind, ← hpos, hend, hloop]
  rfl

end Board

end Afm
