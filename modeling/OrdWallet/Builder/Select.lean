import OrdWallet.FeeLoop

/-!
# The selection closures

Each builder draws its inputs inside a `write_utxo_manager(|manager| { .. })` closure: a
selection loop on one pool, then a check that gives the drawn UTXOs back and fails when they
fall short. The plain closures of the builders differ only in their pool, target and error
value, and the runic ones only in their break condition, target and error value.
-/

namespace OrdWallet

section Select

variable {ε : Type}

/-- The plain selection closure: draw the UTXOs of `addr` until their sum exceeds `target`;
if they fall short of it, give them back and fail with `err`. -/
def selectBitcoin (addr : String) (target : ℕ) (err : ε) (m : UtxoManager) :
    Except ε (List Utxo × ℕ) × UtxoManager :=
  let d := m.drawBitcoin addr addValue (fun sum => target < sum) 0
  if d.total < target then (.error err, d.manager.recordBtcUtxos addr d.utxos)
  else (.ok (d.utxos, d.total), d.manager)

/-- The runic selection closure: draw the UTXOs of `addr` carrying `runeid` until `done` holds
of the running rune balance; if the balance falls short of `target`, give them back and fail
with `err`. Its value is the drawn UTXOs, their rune balance and the BTC they carry. -/
def selectRunic (addr : String) (runeid : RuneId) (done : ℕ → Bool) (target : ℕ) (err : ε)
    (m : UtxoManager) : Except ε (List RunicUtxo × ℕ × ℕ) × UtxoManager :=
  let d := m.drawRunic addr runeid addRunic (fun acc => done acc.1) (0, 0)
  if d.total.1 < target then (.error err, d.manager.recordRunicUtxos addr runeid d.utxos)
  else (.ok (d.utxos, d.total.1, d.total.2), d.manager)

variable {addr : String} {runeid : RuneId} {target : ℕ} {err e : ε} {m m' : UtxoManager}

/-- A failed plain selection found the whole pool short of the target and gave it back. -/
theorem selectBitcoin_error (h : selectBitcoin addr target err m = (.error e, m')) :
    e = err ∧ m' = m ∧ sumValues (m.bitcoin addr) < target := by
  dsimp only [selectBitcoin] at h
  split at h
  · rename_i hlt
    simp only [Prod.mk.injEq, Except.error.injEq] at h
    obtain ⟨rfl, rfl⟩ := h
    have hall : (m.drawBitcoin addr addValue (fun sum => target < sum) 0).utxos = m.bitcoin addr :=
      UtxoManager.drawBitcoin_utxos_of_not_done (by simpa using Nat.le_of_lt hlt)
    refine ⟨rfl, UtxoManager.recordBtcUtxos_drawBitcoin, ?_⟩
    rwa [UtxoManager.drawBitcoin_total, hall] at hlt
  · simp at h

/-- A successful plain selection drew a prefix of the pool whose sum reaches the target;
giving it back restores the manager. -/
theorem selectBitcoin_ok {utxos : List Utxo} {total : ℕ}
    (h : selectBitcoin addr target err m = (.ok (utxos, total), m')) :
    total = sumValues utxos ∧ target ≤ total ∧ m' = m.dropBitcoin addr utxos.length ∧
      utxos ++ (m.bitcoin addr).drop utxos.length = m.bitcoin addr ∧
      m'.recordBtcUtxos addr utxos = m := by
  dsimp only [selectBitcoin] at h
  split at h
  · simp at h
  · rename_i hge
    simp only [Prod.mk.injEq, Except.ok.injEq] at h
    obtain ⟨⟨rfl, rfl⟩, rfl⟩ := h
    exact ⟨UtxoManager.drawBitcoin_total m addr _, Nat.not_lt.mp hge, rfl,
      drawLoop_append_drop 0 _, UtxoManager.recordBtcUtxos_drawBitcoin⟩

variable {done : ℕ → Bool}

/-- A failed runic selection, whose loop breaks only past the target, found the whole pool
short of the target and gave it back. -/
theorem selectRunic_error (hdone : ∀ t, done t = true → target ≤ t)
    (h : selectRunic addr runeid done target err m = (.error e, m')) :
    e = err ∧ m' = m ∧ sumBalances (m.runic addr runeid) < target := by
  dsimp only [selectRunic] at h
  split at h
  · rename_i hlt
    simp only [Prod.mk.injEq, Except.error.injEq] at h
    obtain ⟨rfl, rfl⟩ := h
    have hnd : done (m.drawRunic addr runeid addRunic (fun acc => done acc.1) (0, 0)).total.1 = false :=
      Bool.eq_false_iff.mpr fun hd => Nat.not_le.mpr hlt (hdone _ hd)
    have hall : (m.drawRunic addr runeid addRunic (fun acc => done acc.1) (0, 0)).utxos =
        m.runic addr runeid :=
      UtxoManager.drawRunic_utxos_of_not_done hnd
    refine ⟨rfl, UtxoManager.recordRunicUtxos_drawRunic, ?_⟩
    rwa [UtxoManager.drawRunic_total, hall] at hlt
  · simp at h

/-- A successful runic selection drew a prefix of the pool whose rune balance reaches the
target; giving it back restores the manager. -/
theorem selectRunic_ok {utxos : List RunicUtxo} {total btc : ℕ}
    (h : selectRunic addr runeid done target err m = (.ok (utxos, total, btc), m')) :
    total = sumBalances utxos ∧ btc = sumRunicValues utxos ∧ target ≤ total ∧
      m' = m.dropRunic addr runeid utxos.length ∧
      utxos ++ (m.runic addr runeid).drop utxos.length = m.runic addr runeid ∧
      m'.recordRunicUtxos addr runeid utxos = m := by
  dsimp only [selectRunic] at h
  split at h
  · simp at h
  · rename_i hge
    simp only [Prod.mk.injEq, Except.ok.injEq] at h
    obtain ⟨⟨rfl, rfl, rfl⟩, rfl⟩ := h
    have htot := UtxoManager.drawRunic_total m addr runeid (fun acc => done acc.1)
    exact ⟨congrArg Prod.fst htot, congrArg Prod.snd htot, Nat.not_lt.mp hge, rfl,
      drawLoop_append_drop _ _, UtxoManager.recordRunicUtxos_drawRunic⟩

end Select

end OrdWallet
