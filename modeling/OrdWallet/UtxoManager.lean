import OrdWallet.Basic

/-!
# The UTXO manager and the selection loop

The manager (`state::UtxoManager`, not among the sources) is modelled from the spec: per address a
pool of plain UTXOs and per address and rune a pool of runic UTXOs, each a set kept in outpoint
order. `get_*_utxo` removes the first entry, `record_*_utxos` inserts the entries whose outpoint
is not yet present, so giving back what was drawn restores a pool exactly. Every builder draws
with `while let Some(u) = take() { acc += u; push(u); if done { break } }`, here `drawLoop`.
-/

namespace OrdWallet

section Pool

variable {α : Type} (key : α → OutPoint)

/-- Insert `u` at its place in a pool ordered by outpoint, unless its outpoint is present. -/
def insertFresh (u : α) : List α → List α
  | [] => [u]
  | v :: vs =>
    if key u < key v then u :: v :: vs
    else if key u = key v then v :: vs
    else v :: insertFresh u vs

/-- `record_*_utxos` on one pool: insert the entries of `new` one after the other. -/
def recordInto (pool new : List α) : List α := new.foldl (fun p u => insertFresh key u p) pool

variable {key}

theorem mem_insertFresh {u w : α} {l : List α} (h : w ∈ insertFresh key u l) : w = u ∨ w ∈ l := by
  induction l with
  | nil => simpa [insertFresh] using h
  | cons v vs ih =>
    unfold insertFresh at h
    split at h
    · simpa using h
    · split at h
      · exact Or.inr h
      · rcases List.mem_cons.mp h with rfl | h
        · exact Or.inr (List.mem_cons_self _ _)
        · rcases ih h with rfl | h
          · exact Or.inl rfl
          · exact Or.inr (List.mem_cons_of_mem _ h)

theorem insertFresh_sorted (u : α) {l : List α} (h : l.Sorted (fun a b => key a < key b)) :
    (insertFresh key u l).Sorted (fun a b => key a < key b) := by
  induction l with
  | nil => simp [insertFresh]
  | cons v vs ih =>
    rw [List.sorted_cons] at h
    unfold insertFresh
    split
    · rename_i hlt
      refine List.sorted_cons.mpr ⟨fun w hw => ?_, List.sorted_cons.mpr h⟩
      rcases List.mem_cons.mp hw with rfl | hw
      · exact hlt
      · exact OutPoint.lt_trans hlt (h.1 w hw)
    · split
      · exact List.sorted_cons.mpr h
      · rename_i hlt hne
        have hvu : key v < key u := by
          rcases OutPoint.lt_trichotomy (key u) (key v) with h' | h' | h'
          · exact absurd h' hlt
          · exact absurd h' hne
          · exact h'
        refine List.sorted_cons.mpr ⟨fun w hw => ?_, ih h.2⟩
        rcases mem_insertFresh hw with rfl | hw
        · exact hvu
        · exact h.1 w hw

theorem insertFresh_perm {u : α} {l : List α} (h : key u ∉ l.map key) :
    (insertFresh key u l).Perm (u :: l) := by
  induction l with
  | nil => exact List.Perm.refl _
  | cons v vs ih =>
    simp only [List.map_cons, List.mem_cons, not_or] at h
    unfold insertFresh
    split
    · exact List.Perm.refl _
    · rw [if_neg h.1]
      exact ((ih h.2).cons v).trans (List.Perm.swap u v vs)

theorem recordInto_sorted {pool : List α} (new : List α)
    (h : pool.Sorted (fun a b => key a < key b)) :
    (recordInto key pool new).Sorted (fun a b => key a < key b) := by
  induction new generalizing pool with
  | nil => exact h
  | cons u us ih => exact ih (insertFresh_sorted u h)

theorem recordInto_perm {pool new : List α} (h : ((new ++ pool).map key).Nodup) :
    (recordInto key pool new).Perm (new ++ pool) := by
  induction new generalizing pool with
  | nil => exact List.Perm.refl _
  | cons u us ih =>
    have hcons := List.nodup_cons.mp (show (key u :: (us ++ pool).map key).Nodup from h)
    have hu : key u ∉ pool.map key := fun hmem =>
      hcons.1 (by rw [List.map_append]; exact List.mem_append_right _ hmem)
    have hins := insertFresh_perm hu
    have hnd : ((us ++ insertFresh key u pool).map key).Nodup :=
      ((((hins.append_left us).trans List.perm_middle).map key).nodup_iff).mpr h
    exact (ih hnd).trans ((hins.append_left us).trans List.perm_middle)

theorem recordInto_mem {pool new : List α} {w : α} (h : w ∈ recordInto key pool new) :
    w ∈ pool ∨ w ∈ new := by
  induction new generalizing pool with
  | nil => exact Or.inl h
  | cons u us ih =>
    rcases ih h with h | h
    · rcases mem_insertFresh h with rfl | h
      · exact Or.inr (List.mem_cons_self _ _)
      · exact Or.inl h
    · exact Or.inr (List.mem_cons_of_mem _ h)

/-- Inserting keeps every entry of the pool: an entry whose outpoint is present is dropped, not
the one present. -/
theorem mem_insertFresh_of_mem {u w : α} {l : List α} (h : w ∈ l) :
    w ∈ insertFresh key u l := by
  induction l with
  | nil => cases h
  | cons v vs ih =>
    unfold insertFresh
    split
    · exact List.mem_cons_of_mem _ h
    · split
      · exact h
      · rcases List.mem_cons.mp h with rfl | h
        · exact List.mem_cons_self _ _
        · exact List.mem_cons_of_mem _ (ih h)

theorem mem_recordInto_of_mem {pool new : List α} {w : α} (h : w ∈ pool) :
    w ∈ recordInto key pool new := by
  induction new generalizing pool with
  | nil => exact h
  | cons u us ih => exact ih (mem_insertFresh_of_mem h)

theorem recordInto_perm_of_perm {pool new full : List α} (hp : (new ++ pool).Perm full)
    (hfull : (full.map key).Nodup) : (recordInto key pool new).Perm full :=
  (recordInto_perm ((hp.map key).nodup_iff.mpr hfull)).trans hp

/-- A pool in outpoint order repeats no outpoint. -/
theorem nodup_keys_of_sorted {l : List α} (h : l.Sorted (fun a b => key a < key b)) :
    (l.map key).Nodup :=
  List.pairwise_map.mpr (h.imp fun {a b} (hlt : key a < key b) (heq : key a = key b) =>
    OutPoint.lt_irrefl _ (heq ▸ hlt))

/-- Two pools in outpoint order with the same entries are equal. -/
theorem eq_of_perm_of_sorted {l₁ l₂ : List α} (hp : l₁.Perm l₂)
    (h₁ : l₁.Sorted (fun a b => key a < key b)) (h₂ : l₂.Sorted (fun a b => key a < key b)) :
    l₁ = l₂ :=
  haveI : IsAntisymm α (fun a b => key a < key b) :=
    ⟨fun _ _ hab hba => absurd (OutPoint.lt_trans hab hba) (OutPoint.lt_irrefl _)⟩
  List.eq_of_perm_of_sorted hp h₁ h₂

/-- Recording into a pool entries that, with it, make up an ordered pool gives that pool. -/
theorem recordInto_eq {pool new full : List α} (hp : (new ++ pool).Perm full)
    (hpool : pool.Sorted (fun a b => key a < key b)) (hfull : full.Sorted (fun a b => key a < key b)) :
    recordInto key pool new = full :=
  eq_of_perm_of_sorted
    ((recordInto_perm ((hp.map key).nodup_iff.mpr (nodup_keys_of_sorted hfull))).trans hp)
    (recordInto_sorted new hpool) hfull

end Pool

/-- Modelled from the spec: the UTXO manager. `bitcoin addr` is the plain pool of `addr`,
`runic addr runeid` its pool of UTXOs carrying `runeid`; each pool is in outpoint order. -/
@[ext]
structure UtxoManager where
  bitcoin : String → List Utxo
  runic : String → RuneId → List RunicUtxo
  bitcoin_sorted : ∀ addr, (bitcoin addr).Sorted (fun a b => a.outpoint < b.outpoint)
  runic_sorted : ∀ addr runeid,
    (runic addr runeid).Sorted (fun a b => a.utxo.outpoint < b.utxo.outpoint)

namespace UtxoManager

/-- The manager of a fresh canister: every pool is empty. -/
def empty : UtxoManager where
  bitcoin _ := []
  runic _ _ := []
  bitcoin_sorted _ := List.sorted_nil
  runic_sorted _ _ := List.sorted_nil

variable (m : UtxoManager) (addr : String) (runeid : RuneId)

/-- The manager after `k` calls of `get_bitcoin_utxo(addr)`: the first `k` plain UTXOs of
`addr` are handed out. -/
def dropBitcoin (k : ℕ) : UtxoManager :=
  { m with
    bitcoin := Function.update m.bitcoin addr ((m.bitcoin addr).drop k)
    bitcoin_sorted := fun a => by
      by_cases h : a = addr
      · subst h
        simpa using (m.bitcoin_sorted a).sublist (List.drop_sublist k _)
      · simpa [Function.update_noteq h] using m.bitcoin_sorted a }

/-- The manager after `k` calls of `get_runic_utxo(addr, runeid)`. -/
def dropRunic (k : ℕ) : UtxoManager :=
  { m with
    runic := Function.update m.runic addr
      (Function.update (m.runic addr) runeid ((m.runic addr runeid).drop k))
    runic_sorted := fun a r => by
      by_cases h : a = addr ∧ r = runeid
      · obtain ⟨rfl, rfl⟩ := h
        simpa using (m.runic_sorted a r).sublist (List.drop_sublist k _)
      · by_cases ha : a = addr
        · subst ha
          have hr : r ≠ runeid := fun hr => h ⟨rfl, hr⟩
          simpa [Function.update_noteq hr] using m.runic_sorted a r
        · simpa [Function.update_noteq ha] using m.runic_sorted a r }

/-- `record_btc_utxos(addr, utxos)`: insert the UTXOs whose outpoint is not in the pool yet. -/
def recordBtcUtxos (utxos : List Utxo) : UtxoManager :=
  { m with
    bitcoin := Function.update m.bitcoin addr (recordInto Utxo.outpoint (m.bitcoin addr) utxos)
    bitcoin_sorted := fun a => by
      by_cases h : a = addr
      · subst h
        simpa using recordInto_sorted utxos (m.bitcoin_sorted a)
      · simpa [Function.update_noteq h] using m.bitcoin_sorted a }

/-- `record_runic_utxos(addr, runeid, utxos)`. -/
def recordRunicUtxos (utxos : List RunicUtxo) : UtxoManager :=
  { m with
    runic := Function.update m.runic addr (Function.update (m.runic addr) runeid
      (recordInto (·.utxo.outpoint) (m.runic addr runeid) utxos))
    runic_sorted := fun a r => by
      by_cases h : a = addr ∧ r = runeid
      · obtain ⟨rfl, rfl⟩ := h
        simpa using recordInto_sorted utxos (m.runic_sorted a r)
      · by_cases ha : a = addr
        · subst ha
          have hr : r ≠ runeid := fun hr => h ⟨rfl, hr⟩
          simpa [Function.update_noteq hr] using m.runic_sorted a r
        · simpa [Function.update_noteq ha] using m.runic_sorted a r }

/-- `get_bitcoin_utxo(addr)`: remove and return the first plain UTXO of `addr`. -/
def getBitcoinUtxo : Option Utxo × UtxoManager := ((m.bitcoin addr).head?, m.dropBitcoin addr 1)

/-- `get_runic_utxo(addr, runeid)`: remove and return the first UTXO carrying `runeid`. -/
def getRunicUtxo : Option RunicUtxo × UtxoManager :=
  ((m.runic addr runeid).head?, m.dropRunic addr runeid 1)

/-- `get_bitcoin_balance(addr)`: the `u64` sum of the plain pool's values. -/
def getBitcoinBalance : ℕ := (m.bitcoin addr).foldl (fun s u => wrappingAdd 64 s u.value) 0

/-- `get_runestone_balance(addr, runeid)`: the `u128` sum of the pool's rune balances. -/
def getRunestoneBalance : ℕ :=
  (m.runic addr runeid).foldl (fun s u => wrappingAdd 128 s u.balance) 0

variable {m addr runeid}

@[simp] theorem bitcoin_dropBitcoin (k : ℕ) (a : String) :
    (m.dropBitcoin addr k).bitcoin a = if a = addr then (m.bitcoin a).drop k else m.bitcoin a := by
  by_cases h : a = addr <;> simp [dropBitcoin, h, Function.update_noteq]

@[simp] theorem runic_dropBitcoin (k : ℕ) : (m.dropBitcoin addr k).runic = m.runic := rfl

@[simp] theorem runic_dropRunic (k : ℕ) (a : String) (r : RuneId) :
    (m.dropRunic addr runeid k).runic a r =
      if a = addr ∧ r = runeid then (m.runic a r).drop k else m.runic a r := by
  by_cases h : a = addr
  · subst h
    by_cases hr : r = runeid <;> simp [dropRunic, hr, Function.update_noteq]
  · simp [dropRunic, h, Function.update_noteq]

@[simp] theorem bitcoin_dropRunic (k : ℕ) : (m.dropRunic addr runeid k).bitcoin = m.bitcoin := rfl

@[simp] theorem bitcoin_recordBtcUtxos (utxos : List Utxo) (a : String) :
    (m.recordBtcUtxos addr utxos).bitcoin a =
      if a = addr then recordInto Utxo.outpoint (m.bitcoin a) utxos else m.bitcoin a := by
  by_cases h : a = addr <;> simp [recordBtcUtxos, h, Function.update_noteq]

@[simp] theorem runic_recordBtcUtxos (utxos : List Utxo) :
    (m.recordBtcUtxos addr utxos).runic = m.runic := rfl

@[simp] theorem runic_recordRunicUtxos (utxos : List RunicUtxo) (a : String) (r : RuneId) :
    (m.recordRunicUtxos addr runeid utxos).runic a r =
      if a = addr ∧ r = runeid then recordInto (·.utxo.outpoint) (m.runic a r) utxos
      else m.runic a r := by
  by_cases h : a = addr
  · subst h
    by_cases hr : r = runeid <;> simp [recordRunicUtxos, hr, Function.update_noteq]
  · simp [recordRunicUtxos, h, Function.update_noteq]

@[simp] theorem bitcoin_recordRunicUtxos (utxos : List RunicUtxo) :
    (m.recordRunicUtxos addr runeid utxos).bitcoin = m.bitcoin := rfl

/-- Recording into a plain pool and into a runic pool commute. -/
theorem recordBtcUtxos_recordRunicUtxos (a : String) (runic : List RunicUtxo) (plain : List Utxo) :
    (m.recordRunicUtxos addr runeid runic).recordBtcUtxos a plain =
      (m.recordBtcUtxos a plain).recordRunicUtxos addr runeid runic :=
  UtxoManager.ext rfl rfl

/-- Recording nothing leaves the manager as it is. -/
@[simp] theorem recordBtcUtxos_nil : m.recordBtcUtxos addr [] = m := by
  ext1
  · funext a
    by_cases h : a = addr <;> simp [h, recordInto]
  · rfl

/-- Giving back a prefix of a plain pool that was handed out restores the manager. -/
theorem recordBtcUtxos_dropBitcoin {u : List Utxo}
    (h : u ++ (m.bitcoin addr).drop u.length = m.bitcoin addr) :
    (m.dropBitcoin addr u.length).recordBtcUtxos addr u = m := by
  ext1
  · funext a
    by_cases ha : a = addr
    · subst ha
      rw [bitcoin_recordBtcUtxos, if_pos rfl]
      refine recordInto_eq ?_ ((m.dropBitcoin a u.length).bitcoin_sorted a) (m.bitcoin_sorted a)
      rw [bitcoin_dropBitcoin, if_pos rfl, h]
    · simp [ha]
  · rfl

/-- Giving back a prefix of a runic pool that was handed out restores the manager. -/
theorem recordRunicUtxos_dropRunic {u : List RunicUtxo}
    (h : u ++ (m.runic addr runeid).drop u.length = m.runic addr runeid) :
    (m.dropRunic addr runeid u.length).recordRunicUtxos addr runeid u = m := by
  ext1
  · rfl
  · funext a r
    by_cases har : a = addr ∧ r = runeid
    · obtain ⟨rfl, rfl⟩ := har
      rw [runic_recordRunicUtxos, if_pos ⟨rfl, rfl⟩]
      refine recordInto_eq ?_ ((m.dropRunic a r u.length).runic_sorted a r) (m.runic_sorted a r)
      rw [runic_dropRunic, if_pos ⟨rfl, rfl⟩, h]
    · simp [har]

/-- Two prefixes handed out in turn, from the pools of `a₀` and then of `a₁`, and given back in
the same order restore the manager; the two addresses may be the same, the second prefix then
being taken from what the first left. -/
theorem recordBtcUtxos_dropBitcoin_dropBitcoin {a₀ a₁ : String} {u₀ u₁ : List Utxo}
    (h₀ : u₀ ++ (m.bitcoin a₀).drop u₀.length = m.bitcoin a₀)
    (h₁ : u₁ ++ ((m.dropBitcoin a₀ u₀.length).bitcoin a₁).drop u₁.length =
      (m.dropBitcoin a₀ u₀.length).bitcoin a₁) :
    (((m.dropBitcoin a₀ u₀.length).dropBitcoin a₁ u₁.length).recordBtcUtxos a₀ u₀).recordBtcUtxos
      a₁ u₁ = m := by
  set m₀ := m.dropBitcoin a₀ u₀.length
  set m₁ := m₀.dropBitcoin a₁ u₁.length
  have hnd : ∀ a, ((m.bitcoin a).map Utxo.outpoint).Nodup := fun a =>
    nodup_keys_of_sorted (m.bitcoin_sorted a)
  ext1
  · funext a
    apply eq_of_perm_of_sorted _ (UtxoManager.bitcoin_sorted _ a) (m.bitcoin_sorted a)
    simp only [bitcoin_recordBtcUtxos]
    by_cases ha₁ : a = a₁ <;> by_cases ha₀ : a = a₀
    · subst ha₁; subst ha₀
      rw [if_pos rfl, if_pos rfl]
      have hm₁ : m₁.bitcoin a = (m₀.bitcoin a).drop u₁.length := by simp [m₁]
      have hm₀ : m₀.bitcoin a = (m.bitcoin a).drop u₀.length := by simp [m₀]
      have hfull : (u₀ ++ (u₁ ++ m₁.bitcoin a)).Perm (m.bitcoin a) := by
        rw [hm₁, h₁, hm₀, h₀]
      have hmid : (recordInto Utxo.outpoint (m₁.bitcoin a) u₀).Perm (u₀ ++ m₁.bitcoin a) :=
        recordInto_perm_of_perm (List.Perm.refl _)
          ((((List.sublist_append_right _ _).append_left u₀).map _).nodup
            ((hfull.map _).nodup_iff.mpr (hnd a)))
      refine recordInto_perm_of_perm (((hmid.append_left u₁).trans ?_).trans hfull) (hnd a)
      rw [← List.append_assoc, ← List.append_assoc]
      exact List.perm_append_comm.append_right _
    · subst ha₁
      rw [if_pos rfl, if_neg ha₀]
      refine recordInto_perm_of_perm ?_ (hnd a)
      simp only [m₁, bitcoin_dropBitcoin, ↓reduceIte]
      rw [h₁]
      simp [m₀, ha₀]
    · subst ha₀
      rw [if_neg ha₁, if_pos rfl]
      refine recordInto_perm_of_perm ?_ (hnd a)
      simp only [m₁, bitcoin_dropBitcoin, if_neg ha₁, m₀, ↓reduceIte]
      rw [h₀]
    · simp [m₁, m₀, ha₁, ha₀]
  · rfl

end UtxoManager

/-- A `u64` (or `u128`) running sum is the true sum modulo `2 ^ w`. -/
theorem foldl_wrappingAdd {α : Type} {w a : ℕ} (f : α → ℕ) (l : List α) (ha : a < 2 ^ w) :
    l.foldl (fun s u => wrappingAdd w s (f u)) a = (a + (l.map f).sum) % 2 ^ w := by
  induction l generalizing a with
  | nil => simpa using (Nat.mod_eq_of_lt ha).symm
  | cons u us ih =>
    rw [List.foldl_cons, ih (wrappingAdd_lt w a (f u)), wrappingAdd, Nat.mod_add_mod,
      List.map_cons, List.sum_cons, Nat.add_assoc]

/-! ### The selection loop -/

section Draw

variable {α β : Type} (add : β → α → β) (done : β → Bool)

/-- The selection loop of the builders over a pool handed out from the front: each entry is
added to the accumulator and drawn, and the loop breaks as soon as `done` holds. The result is
the drawn entries and the final accumulator. -/
def drawLoop : β → List α → List α × β
  | acc, [] => ([], acc)
  | acc, u :: rest =>
    if done (add acc u) then ([u], add acc u)
    else
      let r := drawLoop (add acc u) rest
      (u :: r.1, r.2)

variable {add done}

/-- The loop draws a prefix of the pool. -/
theorem drawLoop_append_drop (acc : β) (pool : List α) :
    (drawLoop add done acc pool).1 ++ pool.drop (drawLoop add done acc pool).1.length = pool := by
  induction pool generalizing acc with
  | nil => rfl
  | cons u us ih =>
    unfold drawLoop
    split
    · simp
    · simpa using ih (add acc u)

/-- The accumulator is folded over exactly the drawn entries. -/
theorem drawLoop_acc (acc : β) (pool : List α) :
    (drawLoop add done acc pool).2 = (drawLoop add done acc pool).1.foldl add acc := by
  induction pool generalizing acc with
  | nil => rfl
  | cons u us ih =>
    unfold drawLoop
    split
    · rfl
    · simpa using ih (add acc u)

/-- A loop that did not break emptied the pool. -/
theorem drawLoop_eq_of_not_done {acc : β} {pool : List α}
    (h : done (drawLoop add done acc pool).2 = false) : (drawLoop add done acc pool).1 = pool := by
  induction pool generalizing acc with
  | nil => rfl
  | cons u us ih =>
    unfold drawLoop at h ⊢
    split
    · rename_i hd
      simp [hd] at h
    · rename_i hd
      simp only [hd, Bool.false_eq_true, if_false] at h
      simp [ih h]

/-- A loop that never breaks draws the whole pool. -/
theorem drawLoop_never (acc : β) (pool : List α) :
    (drawLoop add (fun _ => false) acc pool).1 = pool :=
  drawLoop_eq_of_not_done rfl

end Draw

/-! ### Drawing from the manager -/

/-- What a selection loop on one pool leaves: the drawn entries in order, the accumulator and the
manager without the drawn entries. -/
structure Drawn (α β : Type) where
  utxos : List α
  total : β
  manager : UtxoManager

namespace UtxoManager

variable {β : Type} (m : UtxoManager) (addr : String) (runeid : RuneId)

/-- The selection loop `while let Some(utxo) = manager.get_bitcoin_utxo(addr) { .. }`. -/
def drawBitcoin (add : β → Utxo → β) (done : β → Bool) (acc : β) : Drawn Utxo β :=
  let r := drawLoop add done acc (m.bitcoin addr)
  ⟨r.1, r.2, m.dropBitcoin addr r.1.length⟩

/-- The selection loop `while let Some(utxo) = manager.get_runic_utxo(addr, runeid) { .. }`. -/
def drawRunic (add : β → RunicUtxo → β) (done : β → Bool) (acc : β) : Drawn RunicUtxo β :=
  let r := drawLoop add done acc (m.runic addr runeid)
  ⟨r.1, r.2, m.dropRunic addr runeid r.1.length⟩

variable {m addr runeid} {add : β → Utxo → β} {done : β → Bool} {acc : β}

/-- The drawn UTXOs and the pool left behind make up the pool. -/
theorem drawBitcoin_append :
    (m.drawBitcoin addr add done acc).utxos ++ (m.drawBitcoin addr add done acc).manager.bitcoin addr =
      m.bitcoin addr := by
  simpa [drawBitcoin] using drawLoop_append_drop acc (m.bitcoin addr)

/-- A plain selection loop that did not break drew the whole pool. -/
theorem drawBitcoin_utxos_of_not_done (h : done (m.drawBitcoin addr add done acc).total = false) :
    (m.drawBitcoin addr add done acc).utxos = m.bitcoin addr :=
  drawLoop_eq_of_not_done h

/-- Giving the drawn UTXOs back restores the manager. -/
theorem recordBtcUtxos_drawBitcoin :
    (m.drawBitcoin addr add done acc).manager.recordBtcUtxos addr
      (m.drawBitcoin addr add done acc).utxos = m :=
  recordBtcUtxos_dropBitcoin (drawLoop_append_drop acc _)

variable {add : β → RunicUtxo → β}

theorem drawRunic_append :
    (m.drawRunic addr runeid add done acc).utxos ++
      (m.drawRunic addr runeid add done acc).manager.runic addr runeid = m.runic addr runeid := by
  simpa [drawRunic] using drawLoop_append_drop acc (m.runic addr runeid)

/-- A runic selection loop that did not break drew the whole pool. -/
theorem drawRunic_utxos_of_not_done
    (h : done (m.drawRunic addr runeid add done acc).total = false) :
    (m.drawRunic addr runeid add done acc).utxos = m.runic addr runeid :=
  drawLoop_eq_of_not_done h

theorem recordRunicUtxos_drawRunic :
    (m.drawRunic addr runeid add done acc).manager.recordRunicUtxos addr runeid
      (m.drawRunic addr runeid add done acc).utxos = m :=
  recordRunicUtxos_dropRunic (drawLoop_append_drop acc _)

/-- Two plain selection loops in turn, given back in the same order, restore the manager; the
two addresses may be the same. -/
theorem recordBtcUtxos_drawBitcoin_drawBitcoin {a₀ a₁ : String} {add₀ add₁ : β → Utxo → β}
    {done₀ done₁ : β → Bool} {acc₀ acc₁ : β} :
    (((m.drawBitcoin a₀ add₀ done₀ acc₀).manager.drawBitcoin a₁ add₁ done₁ acc₁).manager.recordBtcUtxos
        a₀ (m.drawBitcoin a₀ add₀ done₀ acc₀).utxos).recordBtcUtxos a₁
      ((m.drawBitcoin a₀ add₀ done₀ acc₀).manager.drawBitcoin a₁ add₁ done₁ acc₁).utxos = m :=
  recordBtcUtxos_dropBitcoin_dropBitcoin (drawLoop_append_drop acc₀ _) (drawLoop_append_drop acc₁ _)

end UtxoManager

end OrdWallet
