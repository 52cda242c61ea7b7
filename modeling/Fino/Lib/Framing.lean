import Fino.Lib.Parser

/-!
# Writers and readers with a context

A writer appends to an output and a reader takes from the front of an input; each has a context,
such as an open bracket or the last field number. `Moves` relates the two: the reader takes what the
writer appends, and both come to new contexts; or the reader fails on it, whatever follows.
`Follows` says what may stand after an item (`Moves.bind`).

A `Framing` says which contexts fit together; its keys stand for what an item leaves alone. An item
`Keeps` the key, and a pair of brackets `Encloses` what keeps the key within.
-/

namespace Fino.Lib.Framing

open List

variable {ε τ σ ρ κ α β γ : Type}

/-! ## Writers and readers -/

structure Output (τ σ : Type) where
  written : List τ
  context : σ

/-- A writer of `τ`s, with a context in `σ`. -/
abbrev Writer (ε τ σ : Type) := StateT (Output τ σ) (Except ε)

/-- A reader of `τ`s, with a context in `ρ`. -/
abbrev Reader (ε τ ρ : Type) := StateT ρ (Parser ε τ)

def emit (l : List τ) : Writer ε τ σ Unit := modify fun o => { o with written := o.written ++ l }

def context : Writer ε τ σ σ := do return (← get).context

def setContext (c : σ) : Writer ε τ σ Unit := modify fun o => { o with context := c }

/-- From a context to another one the writer appends this. -/
def Writes (w : Writer ε τ σ Unit) (c : σ) (l : List τ) (c' : σ) : Prop :=
  ∀ done, w ⟨done, c⟩ = .ok ((), ⟨done ++ l, c'⟩)

/-- From a context to another one the reader takes this and gives a result, if these follow. -/
def Takes (r : Reader ε τ ρ α) (d : ρ) (l rest : List τ) (a : α) (d' : ρ) : Prop :=
  ∀ k, r d ⟨l ++ rest, k⟩ = .ok ((a, d'), ⟨rest, k + l.length⟩)

/-- The reader throws at these symbols, wherever they stand. -/
def Fails (r : Reader ε τ ρ α) (d : ρ) (l : List τ) : Prop := ∀ k, ∃ e, r d ⟨l, k⟩ = .error e

variable {l l' : List τ} {w : Writer ε τ σ Unit}

lemma Writes.bind {w' : Writer ε τ σ Unit} {c c' c'' : σ} (h : Writes w c l c')
    (h' : Writes w' c' l' c'') :
    Writes (do w; w') c (l ++ l') c'' := by
  intro done
  show (w ⟨done, c⟩).bind (fun q => w' q.2) = _
  rw [h done]
  show w' ⟨done ++ l, c'⟩ = _
  rw [h' (done ++ l), append_assoc]

lemma Writes.unique {c c' c'' : σ} (h : Writes w c l c') (h' : Writes w c l' c'') : l = l' := by
  have heq := (h []).symm.trans (h' [])
  simp only [nil_append, Except.ok.injEq, Prod.mk.injEq, Output.mk.injEq] at heq
  exact heq.2.1

lemma writes_pure (c : σ) : Writes (pure () : Writer ε τ σ Unit) c [] c := by
  intro done
  rw [append_nil]
  rfl

lemma writes_emit (l : List τ) (c : σ) : Writes (emit l : Writer ε τ σ Unit) c l c :=
  fun _ => rfl

lemma writes_setContext (c c' : σ) : Writes (setContext c' : Writer ε τ σ Unit) c [] c' := by
  intro done
  rw [append_nil]
  rfl

lemma Writes.of_context {f : σ → Writer ε τ σ Unit} {c c' : σ}
    (h : Writes (f c) c l c') : Writes (do f (← context)) c l c' :=
  h

variable {a : α}

lemma Writes.of_ok {e : Except ε α} {f : α → Writer ε τ σ Unit} {c c' : σ} (he : e = .ok a)
    (h : Writes (f a) c l c') : Writes (liftM e >>= f) c l c' := by
  subst he
  exact h

variable {f : α → Reader ε τ ρ β} {r : Reader ε τ ρ α} {d d' : ρ} {rest : List τ} {b : β}

lemma Takes.bind {d'' : ρ} (h : Takes r d l (l' ++ rest) a d')
    (h' : Takes (f a) d' l' rest b d'') : Takes (r >>= f) d (l ++ l') rest b d'' := by
  intro k
  show (r d ⟨l ++ l' ++ rest, k⟩).bind (fun q => f q.1.1 q.1.2 q.2) = _
  rw [append_assoc, h k]
  show f a d' ⟨l' ++ rest, k + l.length⟩ = _
  rw [h' (k + l.length), length_append, Nat.add_assoc]

lemma takes_pure (a : α) (d : ρ) (rest : List τ) :
    Takes (pure a : Reader ε τ ρ α) d [] rest a d :=
  fun _ => rfl

variable {p : Parser ε τ α}

lemma takes_lift (h : Parser.Parses p l a) (d : ρ)
    (rest : List τ) : Takes (liftM p : Reader ε τ ρ α) d l rest a d := by
  intro k
  show (p ⟨l ++ rest, k⟩).bind (fun q => .ok ((q.1, d), q.2)) = _
  rw [h rest k]
  rfl

lemma bind_eq_ok {i : Input τ} {q : (β × ρ) × Input τ} :
    (r >>= f) d i = .ok q ↔ ∃ a d' i', r d i = .ok ((a, d'), i') ∧ f a d' i' = .ok q := by
  show (r d >>= fun q => f q.1 q.2 : Parser ε τ (β × ρ)) i = .ok q ↔ _
  rw [Parser.bind_eq_ok]
  constructor
  · rintro ⟨⟨a, d'⟩, i', hr, hf⟩
    exact ⟨a, d', i', hr, hf⟩
  · rintro ⟨a, d', i', hr, hf⟩
    exact ⟨(a, d'), i', hr, hf⟩

variable {r' : Reader ε τ ρ γ}

/-- What the first of two readers gave decides how a reader goes on that begins with it. -/
lemma Takes.of_pair {g : γ → β} {c : γ}
    (h : Takes (do let a ← r; let c ← r'; return (a, c)) d l rest (a, c) d')
    (hf : f a = do let c ← r'; return g c) : Takes (r >>= f) d l rest (g c) d' := by
  intro k
  obtain ⟨a', d₁, i₁, hr, h⟩ := bind_eq_ok.mp (h k)
  obtain ⟨c', d₂, i₂, hr', h⟩ := bind_eq_ok.mp h
  obtain ⟨hresult, rfl⟩ := Prod.mk.inj (Except.ok.inj h)
  obtain ⟨hpair, rfl⟩ := Prod.mk.inj hresult
  obtain ⟨rfl, rfl⟩ := Prod.mk.inj hpair
  refine bind_eq_ok.mpr ⟨a', d₁, i₁, hr, ?_⟩
  rw [hf]
  exact bind_eq_ok.mpr ⟨c', d₂, _, hr', rfl⟩

lemma Fails.bind (h : Fails r d l) : Fails (r >>= f) d l := by
  intro k
  obtain ⟨e, he⟩ := h k
  refine ⟨e, ?_⟩
  show (r d ⟨l, k⟩).bind (fun q => f q.1.1 q.1.2 q.2) = _
  rw [he]
  rfl

lemma fails_lift (h : ∀ k, ∃ e, p ⟨l, k⟩ = .error e) (d : ρ) :
    Fails (liftM p : Reader ε τ ρ α) d l := by
  intro k
  obtain ⟨e, he⟩ := h k
  refine ⟨e, ?_⟩
  show (p ⟨l, k⟩).bind (fun q => .ok ((q.1, d), q.2)) = _
  rw [he]
  rfl

lemma Takes.bind_fails (h : Takes r d l rest a d') (h' : Fails (f a) d' rest) :
    Fails (r >>= f) d (l ++ rest) := by
  intro k
  obtain ⟨e, he⟩ := h' (k + l.length)
  refine ⟨e, ?_⟩
  show (r d ⟨l ++ rest, k⟩).bind (fun q => f q.1.1 q.1.2 q.2) = _
  rw [h k]
  exact he

/-- From contexts to others, the writer appends what the reader takes, with this result; without a
result, the reader fails. -/
def Moves (Follows : List τ → Prop) (c : σ) (d : ρ) (c' : σ) (d' : ρ) (w : Writer ε τ σ Unit)
    (r : Reader ε τ ρ α) : Option α → Prop
  | some a => ∃ l, Writes w c l c' ∧
      ∀ rest, Follows rest → Follows (l ++ rest) ∧ Takes r d l rest a d'
  | none => ∃ l, Writes w c l c' ∧ ∀ rest, Follows (l ++ rest) ∧ Fails r d (l ++ rest)

variable {g : α → Option β}

section Moves

variable {Follows : List τ → Prop} {c c' c'' : σ} {d d' d'' : ρ} {w w' : Writer ε τ σ Unit}
  {r : Reader ε τ ρ α} {x : Option α}

lemma Moves.writes (h : Moves Follows c d c' d' w r x) : ∃ l, Writes w c l c' := by
  cases x with
  | none | some a => exact ⟨h.choose, h.choose_spec.1⟩

lemma Moves.bind (h : Moves Follows c d c' d' w r x)
    (h' : ∀ a, x = some a → Moves Follows c' d' c'' d'' w' (f a) (g a))
    (hw : ∃ l, Writes w' c' l c'') :
    Moves Follows c d c'' d'' (do w; w') (r >>= f) (x.bind g) := by
  cases x with
  | none =>
    obtain ⟨l, hl, hrest⟩ := h
    obtain ⟨l', hl'⟩ := hw
    refine ⟨l ++ l', hl.bind hl', fun rest => ?_⟩
    rw [append_assoc]
    exact ⟨(hrest _).1, (hrest _).2.bind⟩
  | some a =>
    obtain ⟨l, hl, hrest⟩ := h
    have h' := h' a rfl
    show Moves Follows c d c'' d'' _ _ (g a)
    cases hg : g a with
    | none =>
      rw [hg] at h'
      obtain ⟨l', hl', hrest'⟩ := h'
      refine ⟨l ++ l', hl.bind hl', fun rest => ?_⟩
      obtain ⟨hfollows, hfails⟩ := hrest' rest
      obtain ⟨hfollows', htakes⟩ := hrest _ hfollows
      rw [append_assoc]
      exact ⟨hfollows', htakes.bind_fails hfails⟩
    | some b =>
      rw [hg] at h'
      obtain ⟨l', hl', hrest'⟩ := h'
      refine ⟨l ++ l', hl.bind hl', fun rest hrest'' => ?_⟩
      obtain ⟨hfollows, htakes'⟩ := hrest' rest hrest''
      obtain ⟨hfollows', htakes⟩ := hrest _ hfollows
      rw [append_assoc]
      exact ⟨hfollows', htakes.bind htakes'⟩

lemma Moves.bind_some {y : Option β} (h : Moves Follows c d c' d' w r (some a))
    (h' : Moves Follows c' d' c'' d'' w' (f a) y) :
    Moves Follows c d c'' d'' (do w; w') (r >>= f) y :=
  h.bind (fun _ ha => Option.some.inj ha ▸ h') h'.writes

lemma moves_pure (a : α) :
    Moves Follows c d c d (pure () : Writer ε τ σ Unit) (pure a : Reader ε τ ρ α) (some a) :=
  ⟨[], writes_pure c, fun rest hrest => ⟨hrest, takes_pure a d rest⟩⟩

/-- What the first of two readers gave decides how a reader goes on that begins with it. -/
lemma Moves.of_pair {g : γ → β} {e : γ}
    (h : Moves Follows c d c' d' w (do let a ← r; let e ← r'; return (a, e)) (some (a, e)))
    (hf : f a = do let e ← r'; return g e) :
    Moves Follows c d c' d' w (r >>= f) (some (g e)) := by
  obtain ⟨l, hl, hrest⟩ := h
  exact ⟨l, hl, fun rest hfollows => ⟨(hrest rest hfollows).1, (hrest rest hfollows).2.of_pair hf⟩⟩

lemma Moves.bind_pure (h : Moves Follows c d c' d' w r (some a)) (hf : f a = pure b) :
    Moves Follows c d c' d' w (r >>= f) (some b) := by
  obtain ⟨l, hl, hrest⟩ := h
  refine ⟨l, hl, fun rest hfollows => ⟨(hrest rest hfollows).1, fun k => ?_⟩⟩
  refine bind_eq_ok.mpr ⟨a, d', _, (hrest rest hfollows).2 k, ?_⟩
  rw [hf]
  rfl

lemma Moves.map (h : Moves Follows c d c' d' w r x) (g : α → β) :
    Moves Follows c d c' d' w (r >>= fun a => pure (g a)) (x.map g) := by
  cases x with
  | none =>
    obtain ⟨l, hl, hrest⟩ := h
    exact ⟨l, hl, fun rest => ⟨(hrest rest).1, (hrest rest).2.bind⟩⟩
  | some a =>
    obtain ⟨l, hl, hrest⟩ := h
    refine ⟨l, hl, fun rest hrest' => ⟨(hrest rest hrest').1, ?_⟩⟩
    intro k
    show (r d ⟨l ++ rest, k⟩).bind (fun q => .ok ((g q.1.1, q.1.2), q.2)) = _
    rw [(hrest rest hrest').2 k]
    rfl

end Moves

/-! ## Frames -/

/-- The contexts that fit together, for each key, and what may follow on an item. -/
structure Frame (τ σ ρ κ : Type) where
  Related : κ → σ → ρ → Prop
  Follows : List τ → Prop

namespace Frame

variable (F : Frame τ σ ρ κ) (w : Writer ε τ σ Unit)

/-- Writer and reader go together, from related contexts to related ones. -/
def Keeps (r : Reader ε τ ρ α) (x : Option α) : Prop :=
  ∀ key c d, F.Related key c d → ∃ c' d', F.Related key c' d' ∧ Moves F.Follows c d c' d' w r x

/-- Something can always be written, and keeps the key. -/
def Writable : Prop :=
  ∀ key c d, F.Related key c d → ∃ l c' d', F.Related key c' d' ∧ Writes w c l c'

/-- What one writer opens another closes, and the contexts are of this kind again if the key is kept
in between. -/
def Opens (R : σ → ρ → Prop) (w : Writer ε τ σ Unit) (r : Reader ε τ ρ α)
    (x : Option α) (w' : Writer ε τ σ Unit) (r' : Reader ε τ ρ β) (b : β) : Prop :=
  ∀ c d, R c d → ∃ key c₁ d₁, F.Related key c₁ d₁ ∧ Moves F.Follows c d c₁ d₁ w r x ∧
    ∀ c₂ d₂, F.Related key c₂ d₂ → ∃ c₃ d₃, R c₃ d₃ ∧ Moves F.Follows c₂ d₂ c₃ d₃ w' r' (some b)

/-- What is opened by one writer is closed by another one, if the key is kept in between. -/
def Encloses (r : Reader ε τ ρ α) (x : Option α)
    (w' : Writer ε τ σ Unit) (r' : Reader ε τ ρ β) (b : β) : Prop :=
  ∀ key, F.Opens (F.Related key) w r x w' r' b

variable {F : Frame τ σ ρ κ} {w w' w'' : Writer ε τ σ Unit} {r : Reader ε τ ρ α} {x : Option α}

lemma Keeps.writable (h : F.Keeps w r x) : F.Writable w := by
  intro key c d hrelated
  obtain ⟨c', d', hrelated', hmoves⟩ := h key c d hrelated
  obtain ⟨l, hl⟩ := hmoves.writes
  exact ⟨l, c', d', hrelated', hl⟩

lemma keeps_pure (a : α) :
    F.Keeps (pure () : Writer ε τ σ Unit) (pure a : Reader ε τ ρ α) (some a) :=
  fun _ c d hrelated => ⟨c, d, hrelated, moves_pure a⟩

lemma Keeps.map (h : F.Keeps w r x) (g : α → β) :
    F.Keeps w (r >>= fun a => pure (g a)) (x.map g) := by
  intro key c d hrelated
  obtain ⟨c', d', hrelated', hmoves⟩ := h key c d hrelated
  exact ⟨c', d', hrelated', hmoves.map g⟩

lemma Keeps.bind (h : F.Keeps w r x) (h' : ∀ a, x = some a → F.Keeps w' (f a) (g a))
    (hw : F.Writable w') :
    F.Keeps (do w; w') (r >>= f) (x.bind g) := by
  intro key c d hrelated
  obtain ⟨c₁, d₁, hrelated₁, hmoves⟩ := h key c d hrelated
  cases hx : x with
  | none =>
    obtain ⟨l, c₂, d₂, hrelated₂, hwrites⟩ := hw key c₁ d₁ hrelated₁
    rw [hx] at hmoves
    exact ⟨c₂, d₂, hrelated₂, hmoves.bind (fun a ha => absurd ha (by simp)) ⟨l, hwrites⟩⟩
  | some a =>
    obtain ⟨c₂, d₂, hrelated₂, hmoves₂⟩ := h' a hx key c₁ d₁ hrelated₁
    rw [hx] at hmoves
    exact ⟨c₂, d₂, hrelated₂, hmoves.bind_some hmoves₂⟩

variable {f : α → Reader ε τ ρ γ} {r' : Reader ε τ ρ β}

lemma Encloses.keeps_some {r'' : Reader ε τ ρ γ} {y : Option γ}
    (h : F.Encloses w r (some a) w'' r' b) (h' : F.Keeps w' r'' y)
    (hf : f a = do let z ← r''; let _ ← r'; return z) :
    F.Keeps (do w; w'; w'') (r >>= f) y := by
  intro key c d hrelated
  obtain ⟨key', c₁, d₁, hrelated₁, hmoves, hclose⟩ := h key c d hrelated
  obtain ⟨c₂, d₂, hrelated₂, hmoves₂⟩ := h' key' c₁ d₁ hrelated₁
  obtain ⟨c₃, d₃, hrelated₃, hmoves₃⟩ := hclose c₂ d₂ hrelated₂
  refine ⟨c₃, d₃, hrelated₃, hmoves.bind_some ?_⟩
  have hinner := hmoves₂.bind (g := some)
    (fun z _ => hmoves₃.map fun _ => z) hmoves₃.writes
  rw [hf]
  rwa [Option.bind_fun_some] at hinner

lemma Encloses.keeps {g : α → Option γ} (h : F.Encloses w r x w'' r' b)
    (h' : ∀ a, x = some a → F.Keeps w' (f a) (g a)) (hw : F.Writable w') :
    F.Keeps (do w; w'; w'') (do let a ← r; let y ← f a; let _ ← r'; return y) (x.bind g) := by
  cases hx : x with
  | none =>
    intro key c d hrelated
    obtain ⟨key', c₁, d₁, hrelated₁, hmoves, hclose⟩ := h key c d hrelated
    obtain ⟨l, c₂, d₂, hrelated₂, hwrites⟩ := hw key' c₁ d₁ hrelated₁
    obtain ⟨c₃, d₃, hrelated₃, hmoves₃⟩ := hclose c₂ d₂ hrelated₂
    obtain ⟨l', hwrites'⟩ := hmoves₃.writes
    rw [hx] at hmoves
    exact ⟨c₃, d₃, hrelated₃,
      hmoves.bind (fun a ha => absurd ha (by simp)) ⟨l ++ l', hwrites.bind hwrites'⟩⟩
  | some a =>
    rw [hx] at h
    exact h.keeps_some (h' a hx) rfl

end Frame

def writeEach (w : γ → Writer ε τ σ Unit) : List γ → Writer ε τ σ Unit
  | [] => pure ()
  | item :: items => do
    w item
    writeEach w items

def readTimes (r : Reader ε τ ρ α) : ℕ → Reader ε τ ρ (List α)
  | 0 => pure []
  | n + 1 => do
    let a ← r
    let l ← readTimes r n
    return a :: l

lemma Frame.keeps_readTimes {F : Frame τ σ ρ κ} {w : γ → Writer ε τ σ Unit} {f : γ → Option α}
    {items : List γ} (h : ∀ item ∈ items, F.Keeps (w item) r (f item)) :
    F.Keeps (writeEach w items) (readTimes r items.length) (items.mapM f) := by
  induction items with
  | nil => exact keeps_pure []
  | cons item items ih =>
    obtain ⟨hitem, hitems⟩ := forall_mem_cons.mp h
    have ih := ih hitems
    rw [mapM_cons]
    refine hitem.bind (fun a _ => ?_) ih.writable
    have htail := ih.map (a :: ·)
    rwa [Option.map_eq_bind] at htail

/-- Where `r` succeeds, `q` does as well: it stops at the same place with the same context, and
gives `f` of what `r` gave. -/
def Retraces (q : Reader ε τ ρ β) (r : Reader ε τ ρ α) (f : α → β) : Prop :=
  ∀ ⦃d i x d' i'⦄, r d i = .ok ((x, d'), i') → q d i = .ok ((f x, d'), i')

variable {δ : Type} {q : Reader ε τ ρ β} {f : α → β} {g : δ → γ}

lemma Retraces.bind {k : β → Reader ε τ ρ γ} {l : α → Reader ε τ ρ δ} (h : Retraces q r f)
    (hk : ∀ a, Retraces (k (f a)) (l a) g) : Retraces (q >>= k) (r >>= l) g := by
  intro d i x d' i' hx
  obtain ⟨a, d₁, i₁, ha, hrest⟩ := bind_eq_ok.mp hx
  exact bind_eq_ok.mpr ⟨f a, d₁, i₁, h ha, hk a hrest⟩

lemma retraces_self (r : Reader ε τ ρ α) : Retraces r r id :=
  fun _ _ _ _ _ h => h

/-- Two readers that begin alike. -/
lemma retraces_bind {k : α → Reader ε τ ρ γ} {l : α → Reader ε τ ρ δ}
    (hk : ∀ a, Retraces (k a) (l a) g) : Retraces (r >>= k) (r >>= l) g :=
  (retraces_self r).bind hk

lemma retraces_pure {a : α} {b : β} (h : f a = b) :
    Retraces (pure b) (pure a : Reader ε τ ρ α) f := by
  intro d i x d' i' hx
  obtain ⟨hpair, rfl⟩ := Prod.mk.inj (Except.ok.inj hx)
  obtain ⟨rfl, rfl⟩ := Prod.mk.inj hpair
  rw [h]
  rfl

/-- What is made at the end of what was read changes nothing. -/
lemma Retraces.of_map {h : α → δ} {g : δ → β} (hq : Retraces q r f) (hg : ∀ a, g (h a) = f a) :
    Retraces q (r >>= fun a => pure (h a)) g := by
  intro d i x d' i' hx
  obtain ⟨a, d₁, i₁, ha, hrest⟩ := bind_eq_ok.mp hx
  obtain ⟨hpair, rfl⟩ := Prod.mk.inj (Except.ok.inj hrest)
  obtain ⟨rfl, rfl⟩ := Prod.mk.inj hpair
  rw [hg]
  exact hq ha

lemma Retraces.readTimes (h : Retraces q r f) (n : ℕ) :
    Retraces (readTimes q n) (readTimes r n) (map f) := by
  induction n with
  | zero => exact retraces_pure rfl
  | succ n ih => exact h.bind fun a => ih.bind fun l => retraces_pure rfl

end Fino.Lib.Framing
