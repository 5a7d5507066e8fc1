/-
**Numbers the board prints.**

`uart.cpp` writes the digits of a number, the last one first, into a local array of twelve bytes
that nothing has initialised, and sends them in reverse order.  Its model uses the arrays with
checked accesses.  The signed arithmetic is that of the integers, and a conversion takes the value
modulo the word.

Main definitions:

* `Afm.Firmware.storeDigits`, `Afm.Firmware.sendReverse` — the two loops;
* `Afm.Firmware.uartSendInt`, `Afm.Firmware.uartSendUInt`, `Afm.Firmware.uartSendHex` — the
  functions.

Main results:

* `Afm.Firmware.storeDigits_spec` — the digits fit, and stand in the array from last to first;
* `Afm.Firmware.uartSend_numbers` — **every number is printed as it is written in decimal**.
-/

import RedPitayaAfm.CString
import RedPitayaAfm.PyText
import RedPitayaAfm.Text

set_option relaxedAutoImplicit false
set_option autoImplicit false

namespace Afm

namespace Firmware

open CString

/-! ### The functions -/

/-- The size of `buffer`. -/
def printBuffer : ℕ := 12

/-- `'0' + (num % 10)` -/
def digitOf (num : ℕ) : Char := Char.ofNat ('0'.toNat + num % 10)

/-- The loop that stores the digits of `num`, from cell `i` on, and returns the next cell. -/
def storeDigits (mem : Memory) (i num : ℕ) : Except AccessFault (Memory × ℕ) :=
  if num = 0 then .ok (mem, i) else do
    let mem ← store printBuffer mem i (digitOf num)
    storeDigits mem (i + 1) (num / 10)
termination_by num

/-- The loop that sends the first `i` cells, the last one first. -/
def sendReverse (mem : Memory) : ℕ → Except AccessFault Text
  | 0 => .ok []
  | i + 1 => do
      let c ← load printBuffer mem i
      let rest ← sendReverse mem i
      .ok (c :: rest)

/-- `unum` of `UART_SendInt`: negative numbers without the overflow of the least one. -/
def magnitude (num : BitVec 32) : BitVec 32 :=
  if num.toInt < 0 then BitVec.ofInt 32 (-(num.toInt + 1)) + 1 else num

/-- `UART_SendInt`: the bytes it sends. -/
def uartSendInt (num : BitVec 32) : Except AccessFault Text :=
  if magnitude num = 0 then .ok ['0'] else do
    let (mem, i) ← storeDigits .fresh 0 (magnitude num).toNat
    if num.toInt < 0 then do
      let mem ← store printBuffer mem i '-'
      sendReverse mem (i + 1)
    else sendReverse mem i

/-- `UART_SendUInt`: the bytes it sends. -/
def uartSendUInt (num : BitVec 32) : Except AccessFault Text :=
  if num = 0 then .ok ['0'] else do
    let (mem, i) ← storeDigits .fresh 0 num.toNat
    sendReverse mem i

/-- `hexChars` -/
def hexChars : Text := "0123456789ABCDEF".toList

/-- `UART_SendHex`: the bytes it sends. -/
def uartSendHex (value : BitVec 32) : Text :=
  "0x".toList ++ (List.range 8).reverse.map fun i =>
    hexChars.getD ((value >>> (i * 4)) &&& 0xF).toNat nul

/-! ### Digits -/

theorem digitOf_eq (num : ℕ) : digitOf num = (num % 10).digitChar := by
  have hlt : num % 10 < 10 := Nat.mod_lt _ (by decide)
  unfold digitOf
  interval_cases num % 10 <;> rfl

/-- A number of more than one digit ends with its last digit. -/
theorem toText_append (num : ℕ) (h : 10 ≤ num) :
    toText num = toText (num / 10) ++ [digitOf num] := by
  rw [digitOf_eq]
  exact Nat.toDigits_of_base_le (by decide) h

theorem toText_digit (num : ℕ) (h : num < 10) : toText num = [digitOf num] := by
  rw [digitOf_eq, Nat.mod_eq_of_lt h]
  exact Nat.toDigits_of_lt_base h

/-! ### The two loops -/

/-- What is sent does not depend on the cells behind. -/
theorem sendReverse_congr {mem mem' : Memory} {i : ℕ} (h : ∀ j < i, mem j = mem' j) :
    sendReverse mem i = sendReverse mem' i := by
  induction i with
  | zero => rfl
  | succ i ih =>
      have hload : load printBuffer mem i = load printBuffer mem' i := by
        unfold load
        rw [h i (Nat.lt_succ_self i)]
      unfold sendReverse
      rw [hload, ih fun j hj => h j (Nat.lt_succ_of_lt hj)]

/-- A cell that is stored behind the others is sent before them. -/
theorem sendReverse_store {mem : Memory} {i : ℕ} {text : Text} (c : Char) (hi : i < printBuffer)
    (h : sendReverse mem i = .ok text) :
    ∃ mem', store printBuffer mem i c = .ok mem' ∧ sendReverse mem' (i + 1) = .ok (c :: text) := by
  refine ⟨Function.update mem i (some c), if_pos hi, ?_⟩
  have hsame : sendReverse (Function.update mem i (some c)) i = .ok text := by
    rw [← h]
    exact sendReverse_congr fun j hj => Function.update_of_ne hj.ne _ _
  have hload : load printBuffer (Function.update mem i (some c)) i = .ok c := by
    unfold load
    rw [if_pos hi, Function.update_self]
  unfold sendReverse
  rw [hload, hsame]
  rfl

/-- **The digits of a number** fit where its decimal text fits, and are sent from the first to the
last. -/
theorem storeDigits_spec (num : ℕ) (hnum : 0 < num) :
    ∀ (mem : Memory) (i : ℕ) (text : Text), sendReverse mem i = .ok text →
      i + (toText num).length ≤ printBuffer → ∃ mem', storeDigits mem i num =
        .ok (mem', i + (toText num).length) ∧
          sendReverse mem' (i + (toText num).length) = .ok (toText num ++ text) := by
  induction num using Nat.strong_induction_on with
  | _ num ih =>
      intro mem i text h hfits
      have hpos : 0 < (toText num).length := List.length_pos_of_ne_nil (toText_ne_nil num)
      obtain ⟨mem₁, hstore, hsend⟩ := sendReverse_store (digitOf num) (by omega) h
      have hstep : storeDigits mem i num = storeDigits mem₁ (i + 1) (num / 10) := by
        rw [storeDigits, if_neg hnum.ne', hstore]
        rfl
      by_cases hsmall : num < 10
      · have hzero : num / 10 = 0 := Nat.div_eq_of_lt hsmall
        refine ⟨mem₁, ?_, ?_⟩
        · rw [hstep, hzero, storeDigits, if_pos rfl, toText_digit num hsmall]
          rfl
        · rw [toText_digit num hsmall]
          exact hsend
      · have hlarge : 10 ≤ num := not_lt.1 hsmall
        have htext := toText_append num hlarge
        have hlength : (toText num).length = (toText (num / 10)).length + 1 := by
          rw [htext, List.length_append, List.length_singleton]
        obtain ⟨mem', hdigits, hsent⟩ := ih (num / 10) (Nat.div_lt_self hnum (by decide))
          (Nat.div_pos hlarge (by decide)) mem₁ (i + 1) _ hsend (by omega)
        have hcell : i + (toText num).length = i + 1 + (toText (num / 10)).length := by omega
        refine ⟨mem', ?_, ?_⟩
        · rw [hstep, hdigits, hcell]
        · rw [hcell, hsent, htext, List.append_assoc]
          rfl

/-! ### Numbers -/

/-- A word has ten digits at most. -/
theorem length_toText_word (num : BitVec 32) : (toText num.toNat).length ≤ 10 := by
  have hlt := num.isLt
  exact Py.length_toText_le (by decide) (hlt.trans (by decide))

theorem magnitude_toNat (num : BitVec 32) : (magnitude num).toNat = num.toInt.natAbs := by
  unfold magnitude
  have hlt := num.isLt
  have hint := BitVec.toInt_eq_toNat_cond num
  split
  · rename_i hneg
    rw [BitVec.toNat_add, BitVec.toNat_ofInt]
    have hone : (1 : BitVec 32).toNat = 1 := rfl
    rw [hone]
    split at hint <;> omega
  · split at hint <;> omega

/-- The text of a number that is not zero, in the array. -/
theorem storeDigits_fresh (num : ℕ) (hnum : 0 < num) (hword : (toText num).length ≤ 10) :
    ∃ mem, storeDigits .fresh 0 num = .ok (mem, (toText num).length) ∧
      sendReverse mem (toText num).length = .ok (toText num) := by
  have hfits : 0 + (toText num).length ≤ printBuffer := by
    rw [Nat.zero_add]
    exact hword.trans (by decide)
  obtain ⟨mem, hstore, hsend⟩ := storeDigits_spec num hnum .fresh 0 [] rfl hfits
  rw [Nat.zero_add] at hstore hsend
  rw [List.append_nil] at hsend
  exact ⟨mem, hstore, hsend⟩

theorem uartSendUInt_eq (num : BitVec 32) : uartSendUInt num = .ok (toText num.toNat) := by
  unfold uartSendUInt
  by_cases hzero : num = 0
  · rw [if_pos hzero, hzero]
    rfl
  · have hpos : 0 < num.toNat := Nat.pos_of_ne_zero fun h => hzero (BitVec.eq_of_toNat_eq h)
    obtain ⟨mem, hstore, hsend⟩ := storeDigits_fresh _ hpos (length_toText_word num)
    rw [if_neg hzero, hstore]
    exact hsend

theorem uartSendInt_eq (num : BitVec 32) : uartSendInt num = .ok (intToText num.toInt) := by
  unfold uartSendInt
  have hnat := magnitude_toNat num
  by_cases hzero : magnitude num = 0
  · have hint : num.toInt = 0 := by
      rw [hzero] at hnat
      exact Int.natAbs_eq_zero.1 hnat.symm
    rw [if_pos hzero, hint]
    rfl
  · have hpos : 0 < (magnitude num).toNat :=
      Nat.pos_of_ne_zero fun h => hzero (BitVec.eq_of_toNat_eq h)
    have hword := length_toText_word (magnitude num)
    obtain ⟨mem, hstore, hsend⟩ := storeDigits_fresh _ hpos hword
    rw [if_neg hzero, hstore]
    rw [hnat] at hsend ⊢
    unfold intToText
    by_cases hneg : num.toInt < 0
    · have hroom : (toText num.toInt.natAbs).length < printBuffer := by
        rw [← hnat]
        exact Nat.lt_of_le_of_lt hword (by decide)
      obtain ⟨mem', hsign, hsent⟩ := sendReverse_store '-' hroom hsend
      rw [if_pos hneg]
      show (if num.toInt < 0 then (store printBuffer mem (toText num.toInt.natAbs).length '-').bind
        fun mem => sendReverse mem ((toText num.toInt.natAbs).length + 1) else _) = _
      rw [if_pos hneg, hsign]
      exact hsent
    · rw [if_neg hneg]
      show (if num.toInt < 0 then _ else sendReverse mem (toText num.toInt.natAbs).length) = _
      rw [if_neg hneg]
      exact hsend

/-- The value of hexadecimal digits. -/
def hexValue (text : Text) : ℕ := text.foldl (fun n c => n * 16 + hexChars.idxOf c) 0

theorem nibble_toNat (value : BitVec 32) (i : ℕ) :
    ((value >>> (i * 4)) &&& 0xF).toNat = value.toNat / 16 ^ i % 16 := by
  have hmask : (0xF : BitVec 32).toNat = 2 ^ 4 - 1 := rfl
  have hpow : 2 ^ (i * 4) = 16 ^ i := by rw [Nat.mul_comm, Nat.pow_mul]
  rw [BitVec.toNat_and, hmask, Nat.and_two_pow_sub_one_eq_mod, BitVec.toNat_ushiftRight,
    Nat.shiftRight_eq_div_pow, hpow]

/-- The eight digits have the value of the word. -/
theorem hexValue_uartSendHex (value : BitVec 32) :
    ∃ digits, uartSendHex value = "0x".toList ++ digits ∧ digits.length = 8 ∧
      hexValue digits = value.toNat := by
  have hdigit : ∀ d < 16, hexChars.idxOf (hexChars.getD d nul) = d := by decide
  have hnibble : ∀ i, hexChars.idxOf (hexChars.getD ((value >>> (i * 4)) &&& 0xF).toNat nul)
      = value.toNat / 16 ^ i % 16 := by
    intro i
    rw [nibble_toNat, hdigit _ (Nat.mod_lt _ (by decide))]
  refine ⟨_, rfl, rfl, ?_⟩
  have hrange : (List.range 8).reverse = [7, 6, 5, 4, 3, 2, 1, 0] := rfl
  have hlt := value.isLt
  rw [hexValue, List.foldl_map, hrange]
  simp only [List.foldl_cons, List.foldl_nil, hnibble]
  omega

/-- **Every number is printed as it is written**: signed and unsigned words in decimal, the least
one included, and hexadecimal words with all their digits.  No access leaves the array or reads a
cell that was not written, and no signed operation overflows. -/
theorem uartSend_numbers (num : BitVec 32) :
    uartSendInt num = .ok (intToText num.toInt) ∧ uartSendUInt num = .ok (toText num.toNat) ∧
      (∃ digits, uartSendHex num = "0x".toList ++ digits ∧ digits.length = 8 ∧
        hexValue digits = num.toNat) ∧
      (num.toInt < 0 → -2 ^ 31 ≤ num.toInt + 1 ∧ -(num.toInt + 1) < 2 ^ 31) := by
  refine ⟨uartSendInt_eq num, uartSendUInt_eq num, hexValue_uartSendHex num, fun hneg => ?_⟩
  have hlow := BitVec.le_toInt num
  constructor
  · norm_num at hlow ⊢
    omega
  · norm_num at hlow ⊢
    omega

end Firmware

end Afm
