import OrdWallet.Transaction

/-!
# The Rune indexer's polling loop

Each firing of the timer that `sync(secs)` sets fetches the block above the indexer's best block
once the node is `REQUIRED_CONFIRMATIONS` ahead, indexes it when its header names the best block
as its parent, and otherwise logs a reorganisation and retries; at height 840 000 it stops.
`updater.rs` and the root module are not among the sources: the constants are variables, the
node's answers the input of each firing, and `index_block` a parameter. The indexed blocks form
one hash-linked chain from the beginning block that only grows and never passes 840 000.
-/

namespace OrdWallet.Indexer

/-- The fields of a block header that `sync` reads: the parent's hash, and the header's own hash
`block_hash()`, the double SHA-256 of its bytes, which is not modelled. -/
structure Header where
  prevBlockhash : ℕ
  blockHash : ℕ
  deriving DecidableEq, Repr

/-- A block as `get_block` returns it. -/
structure Block where
  header : Header
  txdata : List Transaction

/-- The indexer's state as `sync` sees it: the best block `highest_block()` returns, and the
tables `index_block` writes. -/
structure State (σ : Type) where
  height : ℕ
  current : ℕ
  index : σ

/-- The best block, the pair `highest_block()` returns. -/
def State.tip {σ : Type} (s : State σ) : ℕ × ℕ := (s.height, s.current)

/-- The node's answers during one firing: `get_best_from_rpc` (`none` for an error), and what
`get_block` returns at each height (`none` for an error). -/
structure Answers where
  best : Option ℕ
  getBlock : ℕ → Option Block

/-- The node whose chain holds `node h` at each height `h`, with its best height at `best`,
answering every call. -/
def nodeAnswers (node : ℕ → Block) (best : ℕ) : Answers :=
  ⟨some best, fun h => some (node h)⟩

/-- Every block `get_block` returns is the node's block at the height asked. -/
def FromNode (node : ℕ → Block) (a : Answers) : Prop :=
  ∀ h block, a.getBlock h = some block → block = node h

/-- `set_beginning_block(hash)`: the best block starts at `(FIRST_HEIGHT, hash)`. -/
def setBeginningBlock {σ : Type} (firstHeight hash : ℕ) (index : σ) : State σ :=
  ⟨firstHeight, hash, index⟩

section Sync

variable {σ : Type} (requiredConfirmations : ℕ)
  (indexBlock : ℕ → Block → σ → σ × Bool)

/-- `updater::index_block(height + 1, block)`: the tables it leaves and, when it returns `Ok`, the
best block advanced to the block indexed. -/
def State.indexNext (s : State σ) (block : Block) : State σ :=
  match indexBlock (s.height + 1) block s.index with
  | (index, true) => ⟨s.height + 1, block.header.blockHash, index⟩
  | (index, false) => { s with index }

/-- The task a timer of `sync` spawns: the state it leaves and the delay of the `sync` it calls
last, `none` when it returns without one. -/
def sync (s : State σ) (a : Answers) : State σ × Option ℕ :=
  if 840000 ≤ s.height then (s, none)
  else
    match a.best with
    | none => (s, some 5)
    | some best =>
      if best ≤ s.height + requiredConfirmations then (s, some 5)
      else
        match a.getBlock (s.height + 1) with
        | none => (s, some 5)
        | some block =>
          if block.header.prevBlockhash ≠ s.current then (s, some 5)
          else (s.indexNext indexBlock block, some 0)

/-- Timer after timer: the state after the firings answered by `as`, stopping at the first one
that sets no new timer. -/
def run : State σ → List Answers → State σ
  | s, [] => s
  | s, a :: as =>
    match sync requiredConfirmations indexBlock s a with
    | (s', some _) => run s' as
    | (s', none) => s'

/-- The node offers a block that extends the tip, at least `REQUIRED_CONFIRMATIONS` deep, below
height 840 000: the one case in which `sync` calls `index_block`. -/
def State.Extends (s : State σ) (a : Answers) (block : Block) : Prop :=
  s.height < 840000 ∧
    (∃ best, a.best = some best ∧ s.height + requiredConfirmations < best) ∧
    a.getBlock (s.height + 1) = some block ∧ block.header.prevBlockhash = s.current

/-- What `index_block` does to the best block: nothing on an error, one block on `Ok`. -/
theorem State.tip_indexNext (s : State σ) (block : Block) :
    (s.indexNext indexBlock block).tip = s.tip ∨
      (s.indexNext indexBlock block).tip = (s.height + 1, block.header.blockHash) := by
  unfold State.indexNext
  rcases indexBlock (s.height + 1) block s.index with ⟨index, _ | _⟩
  · exact .inl rfl
  · exact .inr rfl

theorem State.height_indexNext_le (s : State σ) (block : Block) :
    (s.indexNext indexBlock block).height ≤ s.height + 1 := by
  rcases s.tip_indexNext indexBlock block with h | h <;>
    simp only [State.tip, Prod.mk.injEq] at h <;> omega

/-- What one firing can do: stop for good at height 840 000, try again in five seconds leaving
the state as it was, or index a block that extends the tip and try the next one at once. -/
theorem sync_cases (s : State σ) (a : Answers) :
    (840000 ≤ s.height ∧ sync requiredConfirmations indexBlock s a = (s, none)) ∨
      sync requiredConfirmations indexBlock s a = (s, some 5) ∨
      ∃ block, s.Extends requiredConfirmations a block ∧
        sync requiredConfirmations indexBlock s a = (s.indexNext indexBlock block, some 0) := by
  unfold sync
  split_ifs with hstop
  · exact .inl ⟨hstop, rfl⟩
  rcases hbest : a.best with _ | best
  · exact .inr (.inl rfl)
  simp only
  split_ifs with hdeep
  · exact .inr (.inl rfl)
  rcases hblock : a.getBlock (s.height + 1) with _ | block
  · exact .inr (.inl rfl)
  simp only
  split_ifs with hlink
  · exact .inr (.inl rfl)
  exact .inr (.inr
    ⟨block, ⟨by omega, ⟨best, hbest, by omega⟩, hblock, not_not.mp hlink⟩, rfl⟩)

/-- When the node offers a block that extends the tip, the firing indexes it. -/
theorem sync_of_extends {s : State σ} {a : Answers} {block : Block}
    (h : s.Extends requiredConfirmations a block) :
    sync requiredConfirmations indexBlock s a = (s.indexNext indexBlock block, some 0) := by
  obtain ⟨hlt, ⟨best, hbest, hdeep⟩, hblock, hlink⟩ := h
  simp only [sync, hbest, hblock, hlink, ne_eq, not_true_eq_false, if_false,
    show ¬ 840000 ≤ s.height by omega,
    show ¬ best ≤ s.height + requiredConfirmations by omega]

theorem State.indexNext_of_ok {s : State σ} {block : Block}
    (h : (indexBlock (s.height + 1) block s.index).2 = true) :
    s.indexNext indexBlock block =
      ⟨s.height + 1, block.header.blockHash, (indexBlock (s.height + 1) block s.index).1⟩ := by
  unfold State.indexNext
  rcases hib : indexBlock (s.height + 1) block s.index with ⟨index, _ | _⟩
  · rw [hib] at h
    cases h
  · rfl

@[simp] theorem run_nil (s : State σ) : run requiredConfirmations indexBlock s [] = s := rfl

theorem run_cons_of_sync {s s' : State σ} {a : Answers} {d : ℕ} (as : List Answers)
    (h : sync requiredConfirmations indexBlock s a = (s', some d)) :
    run requiredConfirmations indexBlock s (a :: as) =
      run requiredConfirmations indexBlock s' as := by
  rw [run, h]

theorem run_cons_of_stop {s s' : State σ} {a : Answers} (as : List Answers)
    (h : sync requiredConfirmations indexBlock s a = (s', none)) :
    run requiredConfirmations indexBlock s (a :: as) = s' := by
  rw [run, h]

/-- A property that every firing answered from `as` keeps holds after the whole run. -/
theorem run_induction (P : State σ → Prop) {as : List Answers}
    (hstep : ∀ s, ∀ a ∈ as, P s → P (sync requiredConfirmations indexBlock s a).1) :
    ∀ s, P s → P (run requiredConfirmations indexBlock s as) := by
  induction as with
  | nil => exact fun s hs => hs
  | cons a as ih =>
    intro s hs
    have hs' := hstep s a (List.mem_cons_self a as) hs
    rcases h : sync requiredConfirmations indexBlock s a with ⟨s', _ | d⟩
    · rw [run_cons_of_stop _ _ as h]
      simpa [h] using hs'
    · rw [run_cons_of_sync _ _ as h]
      exact ih (fun s a ha => hstep s a (List.mem_cons_of_mem _ ha)) s' (by simpa [h] using hs')

/-- A run in which the node never offers a block that extends the tip leaves the state as it
was. -/
theorem run_eq_self {s : State σ} {as : List Answers}
    (h : ∀ a ∈ as, ∀ block, ¬ s.Extends requiredConfirmations a block) :
    run requiredConfirmations indexBlock s as = s := by
  refine run_induction requiredConfirmations indexBlock (· = s) (fun t a ha ht => ?_) s rfl
  subst ht
  rcases sync_cases requiredConfirmations indexBlock t a with
    ⟨-, hs⟩ | hs | ⟨block, hext, -⟩
  · rw [hs]
  · rw [hs]
  · exact absurd hext (h a ha block)

end Sync

/-! ### The indexed chain -/

/-- The hash of the newest block of a chain kept newest first, or of the beginning block when the
chain is empty. -/
def tipHash (beginning : ℕ) : List Header → ℕ
  | [] => beginning
  | b :: _ => b.blockHash

/-- What the indexer is for: a chain of headers, newest first, each naming the one below it as its
parent, the oldest naming the beginning block. -/
def Linked (beginning : ℕ) : List Header → Prop
  | [] => True
  | b :: bs => b.prevBlockhash = tipHash beginning bs ∧ Linked beginning bs

/-- The best block of `s` is the tip of `chain`, linked from the beginning block at
`FIRST_HEIGHT`. -/
structure Indexes {σ : Type} (firstHeight beginning : ℕ) (s : State σ) (chain : List Header) :
    Prop where
  linked : Linked beginning chain
  tip_eq : s.tip = (firstHeight + chain.length, tipHash beginning chain)

section Chain

variable {σ : Type} {requiredConfirmations firstHeight beginning : ℕ}
  {indexBlock : ℕ → Block → σ → σ × Bool}

/-- After `set_beginning_block` the indexer holds the empty chain. -/
theorem indexes_setBeginningBlock (index : σ) :
    Indexes firstHeight beginning (setBeginningBlock firstHeight beginning index) [] :=
  ⟨trivial, rfl⟩

theorem Indexes.of_tip_eq {s s' : State σ} {chain : List Header}
    (h : Indexes firstHeight beginning s chain) (htip : s'.tip = s.tip) :
    Indexes firstHeight beginning s' chain :=
  ⟨h.linked, htip.trans h.tip_eq⟩

/-- Indexing a block that extends the tip keeps the chain linked: the block joins it when
`index_block` succeeds. -/
theorem Indexes.indexNext (indexBlock : ℕ → Block → σ → σ × Bool) {s : State σ}
    {a : Answers} {block : Block} {chain : List Header}
    (h : Indexes firstHeight beginning s chain)
    (hext : s.Extends requiredConfirmations a block) :
    Indexes firstHeight beginning (s.indexNext indexBlock block) chain ∨
      Indexes firstHeight beginning (s.indexNext indexBlock block) (block.header :: chain) := by
  have hcur : s.current = tipHash beginning chain := congrArg Prod.snd h.tip_eq
  have hheight : s.height = firstHeight + chain.length := congrArg Prod.fst h.tip_eq
  rcases s.tip_indexNext indexBlock block with htip | htip
  · exact .inl (h.of_tip_eq htip)
  · refine .inr ⟨⟨hext.2.2.2.trans hcur, h.linked⟩, ?_⟩
    rw [htip, hheight]
    rfl

/-- One firing keeps the chain linked, and grows it by at most one block, and only below height
840 000. -/
theorem Indexes.sync (requiredConfirmations : ℕ)
    (indexBlock : ℕ → Block → σ → σ × Bool)
    {s : State σ} {chain : List Header} (a : Answers)
    (h : Indexes firstHeight beginning s chain) :
    ∃ chain', chain <:+ chain' ∧
      Indexes firstHeight beginning (sync requiredConfirmations indexBlock s a).1 chain' ∧
      (sync requiredConfirmations indexBlock s a).1.height ≤ max s.height 840000 := by
  rcases sync_cases requiredConfirmations indexBlock s a with
    ⟨-, hs⟩ | hs | ⟨block, hext, hs⟩ <;> rw [hs]
  · exact ⟨chain, List.suffix_refl _, h, le_max_left _ _⟩
  · exact ⟨chain, List.suffix_refl _, h, le_max_left _ _⟩
  · have hle : (s.indexNext indexBlock block).height ≤ max s.height 840000 :=
      (s.height_indexNext_le indexBlock block).trans (le_max_of_le_right hext.1)
    rcases h.indexNext indexBlock hext with h' | h'
    · exact ⟨chain, List.suffix_refl _, h', hle⟩
    · exact ⟨_, List.suffix_cons _ _, h', hle⟩

/-- Over every run, from a state that indexes a linked chain, the indexer indexes a linked chain
that extends it: no indexed block is ever dropped or replaced, each block indexed names the
previous tip as its parent, and the height never passes 840 000 unless it started there. -/
theorem run_extends_indexed_chain {s : State σ} {chain : List Header}
    (h : Indexes firstHeight beginning s chain) (as : List Answers) :
    ∃ chain', chain <:+ chain' ∧
      Indexes firstHeight beginning (run requiredConfirmations indexBlock s as) chain' ∧
      (run requiredConfirmations indexBlock s as).height ≤ max s.height 840000 := by
  refine run_induction requiredConfirmations indexBlock
    (fun t => ∃ chain', chain <:+ chain' ∧ Indexes firstHeight beginning t chain' ∧
      t.height ≤ max s.height 840000) (fun t a _ ⟨c, hc, ht, hle⟩ => ?_) s
    ⟨chain, List.suffix_refl _, h, le_max_left _ _⟩
  obtain ⟨c', hc', ht', hle'⟩ := ht.sync requiredConfirmations indexBlock a
  exact ⟨c', hc.trans hc', ht', hle'.trans (max_le hle (le_max_right _ _))⟩

end Chain

/-- A node whose block at each height `h` names `h` as its parent and has hash `h + 1`. -/
def countingNode (h : ℕ) : Block := ⟨⟨h, h + 1⟩, []⟩

/-- An `index_block` that always returns `Ok` and writes nothing. -/
def alwaysOk : ℕ → Block → Unit → Unit × Bool := fun _ _ index => (index, true)

theorem countingNode_extends_chain :
    Indexes 839990 839991 (setBeginningBlock 839990 839991 ()) [] ∧
      ∃ chain', [] <:+ chain' ∧
        Indexes 839990 839991 (run 6 alwaysOk (setBeginningBlock 839990 839991 ())
          (List.replicate 3 (nodeAnswers countingNode 840010))) chain' ∧
        (run 6 alwaysOk (setBeginningBlock 839990 839991 ())
          (List.replicate 3 (nodeAnswers countingNode 840010))).height ≤
            max (setBeginningBlock 839990 839991 ()).height 840000 :=
  ⟨indexes_setBeginningBlock (), run_extends_indexed_chain (indexes_setBeginningBlock ()) _⟩

/-! ### Following a node -/

section Follow

variable {σ : Type} {requiredConfirmations : ℕ}
  {indexBlock : ℕ → Block → σ → σ × Bool}

/-- The indexer never rolls back. Once the node's block above the tip names another parent, as
after a reorganisation that replaced the tip, no run answered by that node changes the state:
`sync` logs the reorganisation and tries again, forever. -/
theorem run_stalls_after_reorg (node : ℕ → Block) {s : State σ}
    (hfork : (node (s.height + 1)).header.prevBlockhash ≠ s.current) {as : List Answers}
    (hnode : ∀ a ∈ as, FromNode node a) :
    run requiredConfirmations indexBlock s as = s :=
  run_eq_self requiredConfirmations indexBlock fun a ha block hext =>
    hfork (hnode a ha _ block hext.2.2.1 ▸ hext.2.2.2)

/-- An indexer at height 839 990 whose tip, hash 7, is not on the counting node's chain. -/
def staleTip : State Unit := ⟨839990, 7, ()⟩

theorem countingNode_stalls :
    (countingNode (staleTip.height + 1)).header.prevBlockhash ≠ staleTip.current ∧
      (∀ a ∈ List.replicate 3 (nodeAnswers countingNode 840010), FromNode countingNode a) ∧
      run 6 alwaysOk staleTip (List.replicate 3 (nodeAnswers countingNode 840010)) = staleTip := by
  have hnode :
      ∀ a ∈ List.replicate 3 (nodeAnswers countingNode 840010), FromNode countingNode a :=
    fun a ha h block hb => by
      obtain rfl := List.eq_of_mem_replicate ha
      exact (Option.some.inj hb).symm
  exact ⟨by decide, hnode, run_stalls_after_reorg countingNode (by decide) hnode⟩

/-- On a node whose chain extends the tip, with every call answered and every `index_block`
returning `Ok`, the indexer follows the node one block a firing, up to `REQUIRED_CONFIRMATIONS`
below the node's best height or to height 840 000, whichever is lower, and stays there. -/
theorem run_catches_up (node : ℕ → Block)
    (hchain : ∀ h, (node (h + 1)).header.prevBlockhash = (node h).header.blockHash)
    (hok : ∀ h block index, (indexBlock h block index).2 = true) (best : ℕ) (k : ℕ) :
    ∀ s : State σ, s.current = (node s.height).header.blockHash →
      (run requiredConfirmations indexBlock s (List.replicate k (nodeAnswers node best))).tip =
        (max s.height (min (s.height + k) (min 840000 (best - requiredConfirmations))),
          (node (max s.height (min (s.height + k)
            (min 840000 (best - requiredConfirmations))))).header.blockHash) := by
  induction k with
  | zero =>
    intro s htip
    have hH : max s.height (min (s.height + 0) (min 840000 (best - requiredConfirmations))) =
        s.height := by omega
    rw [hH, List.replicate_zero, run_nil, State.tip, htip]
  | succ k ih =>
    intro s htip
    by_cases hlt : s.height < min 840000 (best - requiredConfirmations)
    · have hext : s.Extends requiredConfirmations (nodeAnswers node best) (node (s.height + 1)) :=
        ⟨by omega, ⟨best, rfl, by omega⟩, rfl, (hchain _).trans htip.symm⟩
      have hH :
          max (s.height + 1) (min (s.height + 1 + k) (min 840000 (best - requiredConfirmations))) =
            max s.height
              (min (s.height + (k + 1)) (min 840000 (best - requiredConfirmations))) := by
        omega
      rw [List.replicate_succ, run_cons_of_sync _ _ _ (sync_of_extends _ _ hext),
        State.indexNext_of_ok _ (hok _ _ _), ← hH]
      exact ih _ rfl
    · have hH :
          max s.height (min (s.height + (k + 1)) (min 840000 (best - requiredConfirmations))) =
            s.height := by omega
      rw [hH, run_eq_self _ _ fun a ha block hext => ?_, State.tip, htip]
      obtain rfl := List.eq_of_mem_replicate ha
      obtain ⟨h840, ⟨b, hb, hdeep⟩, -⟩ := hext
      cases hb
      omega

/-- From height 839 990, twenty firings against the counting node at best height 840 010 index
ten blocks and stop at 840 000. -/
theorem countingNode_caught_up :
    (∀ h, (countingNode (h + 1)).header.prevBlockhash = (countingNode h).header.blockHash) ∧
      (∀ h block index, (alwaysOk h block index).2 = true) ∧
      (setBeginningBlock 839990 839991 ()).current =
        (countingNode (setBeginningBlock 839990 839991 ()).height).header.blockHash ∧
      (run 6 alwaysOk (setBeginningBlock 839990 839991 ())
        (List.replicate 20 (nodeAnswers countingNode 840010))).tip = (840000, 840001) :=
  ⟨fun _ => rfl, fun _ _ _ => rfl, rfl,
    (run_catches_up countingNode (fun _ => rfl) (fun _ _ _ => rfl) 840010 20 _ rfl).trans
      (by decide)⟩

end Follow

end OrdWallet.Indexer
