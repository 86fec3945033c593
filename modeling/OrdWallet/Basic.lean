import Mathlib

/-!
# Machine integers and the wallet's data model

The wallet's amounts are Rust `u64` (satoshis) and `u128` (rune balances). The canister is
deployed from a release build, in which `+`, `-` and `*` on these types wrap around instead of
trapping; the operations below make that wrap-around explicit. The records are the ones the
transaction builders read: outpoints, UTXOs, runic UTXOs, rune ids, addresses and accounts.
-/

namespace OrdWallet

/-- `a + b` on `w`-bit unsigned integers, as the release build computes it. -/
def wrappingAdd (w a b : ℕ) : ℕ := (a + b) % 2 ^ w

/-- `a - b` on `w`-bit unsigned integers, as the release build computes it: for operands
below `2 ^ w` this is `a - b` when `b ≤ a` and `a + 2 ^ w - b` otherwise. -/
def wrappingSub (w a b : ℕ) : ℕ := (a + (2 ^ w - b)) % 2 ^ w

/-- `a * b` on `w`-bit unsigned integers, as the release build computes it. -/
def wrappingMul (w a b : ℕ) : ℕ := a * b % 2 ^ w

theorem wrappingAdd_lt (w a b : ℕ) : wrappingAdd w a b < 2 ^ w :=
  Nat.mod_lt _ (Nat.pos_pow_of_pos w (by decide))

theorem wrappingSub_lt (w a b : ℕ) : wrappingSub w a b < 2 ^ w :=
  Nat.mod_lt _ (Nat.pos_pow_of_pos w (by decide))

/-- Without overflow, wrapping addition is addition. -/
theorem wrappingAdd_of_lt {w a b : ℕ} (h : a + b < 2 ^ w) : wrappingAdd w a b = a + b :=
  Nat.mod_eq_of_lt h

/-- Without underflow, wrapping subtraction is subtraction. -/
theorem wrappingSub_of_le {w a b : ℕ} (ha : a < 2 ^ w) (h : b ≤ a) :
    wrappingSub w a b = a - b := by
  unfold wrappingSub
  rw [show a + (2 ^ w - b) = a - b + 2 ^ w by omega, Nat.add_mod_right]
  exact Nat.mod_eq_of_lt (by omega)

/-- An underflowing subtraction lands `2 ^ w` above the true, negative, difference. -/
theorem wrappingSub_of_lt {w a b : ℕ} (hb : b ≤ 2 ^ w) (h : a < b) :
    wrappingSub w a b = a + 2 ^ w - b := by
  unfold wrappingSub
  rw [Nat.mod_eq_of_lt (by omega : a + (2 ^ w - b) < 2 ^ w)]
  omega

/-- Two wrapping subtractions are one of the sum, when that sum fits. -/
theorem wrappingSub_wrappingSub {w a b c : ℕ} (h : b + c ≤ 2 ^ w) :
    wrappingSub w (wrappingSub w a b) c = wrappingSub w a (b + c) := by
  unfold wrappingSub
  rw [Nat.mod_add_mod, show a + (2 ^ w - b) + (2 ^ w - c) = a + (2 ^ w - (b + c)) + 2 ^ w by omega,
    Nat.add_mod_right]

@[simp] theorem wrappingMul_zero (w a : ℕ) : wrappingMul w a 0 = 0 := by
  simp [wrappingMul]

/-- `DUST_THRESHOLD` of every builder: change at or below it is left to the fee. -/
def dustThreshold : ℕ := 1000

/-- `DEFAULT_POSTAGE`: the value of an output that carries runes. -/
def defaultPostage : ℕ := 10000

/-- A reference to a transaction output (`OutPoint`). The Bitcoin interface always returns
32-byte transaction ids, and the builders only copy and compare them, so an id is a number. -/
structure OutPoint where
  txid : ℕ
  vout : ℕ
  deriving DecidableEq, Repr

/-- The order of outpoints, by transaction id and then by output index. -/
def OutPoint.lt (a b : OutPoint) : Prop := a.txid < b.txid ∨ (a.txid = b.txid ∧ a.vout < b.vout)

instance : LT OutPoint := ⟨OutPoint.lt⟩

instance (a b : OutPoint) : Decidable (a < b) :=
  inferInstanceAs (Decidable (a.txid < b.txid ∨ (a.txid = b.txid ∧ a.vout < b.vout)))

theorem OutPoint.lt_iff {a b : OutPoint} :
    a < b ↔ a.txid < b.txid ∨ (a.txid = b.txid ∧ a.vout < b.vout) := Iff.rfl

theorem OutPoint.lt_irrefl (a : OutPoint) : ¬a < a := by
  rw [OutPoint.lt_iff]
  omega

theorem OutPoint.lt_trans {a b c : OutPoint} (hab : a < b) (hbc : b < c) : a < c := by
  rw [OutPoint.lt_iff] at *
  omega

theorem OutPoint.lt_trichotomy (a b : OutPoint) : a < b ∨ a = b ∨ b < a := by
  obtain ⟨t₁, v₁⟩ := a
  obtain ⟨t₂, v₂⟩ := b
  simp only [OutPoint.lt_iff, OutPoint.mk.injEq]
  omega

/-- An unspent output as the Bitcoin interface reports it (`Utxo`); `value` is in satoshis. -/
structure Utxo where
  outpoint : OutPoint
  value : ℕ
  deriving DecidableEq, Repr

/-- A rune id (`types::RuneId`): the block and the index of the etching transaction. -/
structure RuneId where
  block : ℕ
  tx : ℕ
  deriving DecidableEq, Repr

/-- The lexicographic order of rune ids (`#[derive(Ord)]` on `(block, tx)`). -/
def RuneId.le (a b : RuneId) : Bool := a.block < b.block || (a.block = b.block && a.tx ≤ b.tx)

/-- A UTXO recorded with its balance of one rune (`state::RunicUtxo`). A UTXO that carries
several runes is recorded once per rune, in the pool of each. -/
structure RunicUtxo where
  utxo : Utxo
  balance : ℕ
  deriving DecidableEq, Repr

/-- A validated address (`bitcoin::Address`). The builders read only its output script, which
for every address type is a standard script and never begins with `OP_RETURN` (`0x6a`). -/
structure Address where
  scriptPubkey : List UInt8
  not_opReturn : scriptPubkey.head? ≠ some 0x6a
  deriving DecidableEq

/-- The address of a P2PKH output script, the type of every address the wallet derives
(`account_to_p2pkh_address`): `OP_DUP OP_HASH160 <hash> OP_EQUALVERIFY OP_CHECKSIG`. -/
def Address.p2pkh (hash : List UInt8) : Address :=
  ⟨0x76 :: 0xa9 :: 0x14 :: hash ++ [0x88, 0xac], by simp⟩

/-- An ICRC-1 account (`icrc1::account::Account`): the signing key is derived from it. -/
structure Account where
  owner : List UInt8
  subaccount : Option (List UInt8)
  deriving DecidableEq, Repr

end OrdWallet
