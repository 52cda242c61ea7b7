import Mathlib.Data.List.Basic

/-!
# Parsers

`Parses p l x` says that `p` reads exactly `l` and gives `x`, whatever follows and wherever it
stands. A parser is `Local` if all its successes are of this kind; compositions of local parsers are
local. The successes of `all` are the ways to cut the input into pieces that are parsed one by one
(`Pieces`, `all_eq_ok`).
-/

namespace Fino.Lib

open List

/-- What is left to be read, and how much was read. -/
structure Input (τ : Type) where
  rest : List τ
  offset : ℕ

/-- A parser of `τ`s, with errors in `ε`. -/
abbrev Parser (ε τ : Type) := StateT (Input τ) (Except ε)

namespace Parser

variable {ε ε' τ α β : Type} (e : ℕ → ε)

def fail : Parser ε τ α := fun i => .error (e i.offset)

def next : Parser ε τ τ := fun i =>
  match i.rest with
  | [] => .error (e i.offset)
  | x :: l => .ok (x, ⟨l, i.offset + 1⟩)

/-- The next `n` items; an error if there are fewer. -/
def slice (n : ℕ) : Parser ε τ (List τ) := fun i =>
  if i.rest.length < n then .error (e i.offset)
  else .ok (i.rest.take n, ⟨i.rest.drop n, i.offset + n⟩)

/-- The errors are changed, with the place where the parser began at hand. -/
def mapError (g : ℕ → ε → ε') (p : Parser ε τ α) : Parser ε' τ α := fun i =>
  (p i).mapError (g i.offset)

/-- The errors are reported at the place where the parser began. -/
def locate (p : Parser (ℕ → ε) τ α) : Parser ε τ α := p.mapError fun k e => e k

variable (p : Parser ε τ α)

def located : Parser (ℕ → ε) τ α := p.mapError fun _ e _ => e

def ofExcept (r : Except ε α) : Parser ε τ α := fun i => r.map fun x => (x, i)

def unlessDone : Parser ε τ α := fun i =>
  if i.rest = [] then .error (e i.offset) else p i

/-- Items until nothing is left; each turn reads at least one. -/
def many (p : Parser ε τ α) : ℕ → Parser ε τ (List α)
  | 0 => pure []
  | n + 1 => fun i =>
    if i.rest = [] then .ok ([], i)
    else (do return (← p) :: (← many p n) : Parser ε τ (List α)) i

def all (l : List τ) : Except ε (List α) :=
  (many p l.length ⟨l, 0⟩).map Prod.fst

/-- The parser reads exactly `l` and gives `x`, whatever follows. -/
def Parses (l : List τ) (x : α) : Prop :=
  ∀ m k, p ⟨l ++ m, k⟩ = .ok (x, ⟨m, k + l.length⟩)

/-- What the parser reads does not depend on what comes behind it. -/
def Local : Prop :=
  ∀ i x i', p i = .ok (x, i') → ∃ l, i.rest = l ++ i'.rest ∧ Parses p l x

/-- The parser reads at least one symbol. -/
def Consumes : Prop := ∀ l x, Parses p l x → l ≠ []

variable {p : Parser ε τ α} {f : α → Parser ε τ β} {l l' : List τ} {x x' : α} {y : β} {i : Input τ}
  {g : ℕ → ε → ε'} {n : ℕ}

lemma bind_eq_ok {r : β × Input τ} : (p >>= f) i = .ok r ↔
    ∃ x i', p i = .ok (x, i') ∧ f x i' = .ok r := by
  show (p i).bind (fun q => f q.1 q.2) = .ok r ↔ _
  cases hp : p i with
  | error e => simp [Except.bind]
  | ok q =>
    simp only [Except.bind, Except.ok.injEq]
    constructor
    · exact fun h => ⟨q.1, q.2, rfl, h⟩
    · rintro ⟨x, i', rfl, h⟩
      exact h

lemma Parses.cancel {m m' : List τ} (h : Parses p l x) (h' : Parses p l' x')
    (heq : l ++ m = l' ++ m') : x = x' ∧ m = m' := by
  have hrun := h m 0
  rw [heq, h' m' 0] at hrun
  simp only [Except.ok.injEq, Prod.mk.injEq, Input.mk.injEq] at hrun
  exact ⟨hrun.1.symm, hrun.2.1.symm⟩

lemma parses_pure (x : α) : Parses (pure x : Parser ε τ α) [] x := fun _ _ => rfl

lemma Parses.bind (hp : Parses p l x) (hf : Parses (f x) l' y) :
    Parses (p >>= f) (l ++ l') y := by
  intro m k
  refine bind_eq_ok.mpr ⟨x, ⟨l' ++ m, k + l.length⟩, ?_, ?_⟩
  · rw [append_assoc]
    exact hp (l' ++ m) k
  · rw [hf m, length_append, Nat.add_assoc]

lemma Parses.bind_nil (hp : Parses p l x) (hf : Parses (f x) [] y) : Parses (p >>= f) l y := by
  have h := hp.bind hf
  rwa [append_nil] at h

lemma Parses.map (hp : Parses p l x) {g : α → β} (hg : g x = y) :
    Parses (do return g (← p)) l y :=
  hp.bind_nil (hg ▸ parses_pure (g x))

lemma parses_next (x : τ) : Parses (next e) [x] x := fun _ _ => rfl

lemma parses_slice (l : List τ) : Parses (slice e l.length) l l := by
  intro m k
  simp [slice]

lemma Parses.mapError (h : Parses p l x) (g : ℕ → ε → ε') : Parses (p.mapError g) l x := by
  intro m k
  rw [Parser.mapError, h m k]
  rfl

lemma Parses.locate {p : Parser (ℕ → ε) τ α} (h : Parses p l x) : Parses p.locate l x :=
  h.mapError _

lemma Parses.located (h : Parses p l x) : Parses p.located l x := h.mapError _

lemma parses_ofExcept (x : α) : Parses (ofExcept (.ok x) : Parser ε τ α) [] x := fun _ _ => rfl

lemma Parses.unlessDone (h : Parses p l x) (hl : l ≠ []) (e : ℕ → ε) :
    Parses (unlessDone e p) l x := by
  intro m k
  rw [Parser.unlessDone, if_neg (by simp [hl])]
  exact h m k

/-! ## Local parsers -/

lemma local_pure (x : α) : Local (pure x : Parser ε τ α) := by
  intro i x' i' h
  obtain ⟨rfl, rfl⟩ := Prod.mk.inj (Except.ok.inj h)
  exact ⟨[], rfl, parses_pure x⟩

lemma local_of_error (h : ∀ i, ∃ e, p i = .error e) : Local p := by
  intro i x i' hi
  obtain ⟨e, he⟩ := h i
  rw [he] at hi
  cases hi

lemma local_fail : Local (fail e : Parser ε τ α) := local_of_error fun _ => ⟨_, rfl⟩

lemma local_throw (e : ε) : Local (throw e : Parser ε τ α) := local_of_error fun _ => ⟨e, rfl⟩

lemma Local.bind (hp : Local p) (hf : ∀ x, Local (f x)) : Local (p >>= f) := by
  intro i y i'' h
  obtain ⟨x, i', hx, hy⟩ := bind_eq_ok.mp h
  obtain ⟨l, hl, hpx⟩ := hp i x i' hx
  obtain ⟨l', hl', hfy⟩ := hf x i' y i'' hy
  exact ⟨l ++ l', by rw [hl, hl', append_assoc], hpx.bind hfy⟩

lemma Local.ite {c : Prop} [Decidable c] {q : Parser ε τ α} (hp : Local p) (hq : Local q) :
    Local (if c then p else q) := by
  split_ifs
  · exact hp
  · exact hq

lemma local_next : Local (next e : Parser ε τ τ) := by
  rintro ⟨rest, k⟩ x i' h
  cases rest with
  | nil => cases h
  | cons y l =>
    obtain ⟨rfl, rfl⟩ := Prod.mk.inj (Except.ok.inj h)
    exact ⟨[y], rfl, parses_next e y⟩

lemma local_slice (n : ℕ) : Local (slice e n : Parser ε τ (List τ)) := by
  rintro ⟨rest, k⟩ x i' h
  unfold slice at h
  split_ifs at h with hn
  obtain ⟨rfl, rfl⟩ := Prod.mk.inj (Except.ok.inj h)
  refine ⟨rest.take n, (take_append_drop n rest).symm, ?_⟩
  have hparses := parses_slice e (rest.take n)
  rwa [length_take_of_le (Nat.le_of_not_lt hn)] at hparses

lemma mapError_eq_ok {r : α × Input τ} : p.mapError g i = .ok r ↔ p i = .ok r := by
  unfold Parser.mapError
  cases p i with
  | error e | ok r' => simp [Except.mapError]

lemma Local.mapError (h : Local p) (g : ℕ → ε → ε') : Local (p.mapError g) := by
  intro i x i' hi
  obtain ⟨l, hl, hx⟩ := h i x i' (mapError_eq_ok.mp hi)
  exact ⟨l, hl, hx.mapError g⟩

lemma Local.locate {p : Parser (ℕ → ε) τ α} (h : Local p) : Local p.locate := h.mapError _

lemma Local.located (h : Local p) : Local p.located := h.mapError _

lemma local_ofExcept (r : Except ε α) : Local (ofExcept r : Parser ε τ α) := by
  cases r with
  | error e => exact local_of_error fun _ => ⟨e, rfl⟩
  | ok x => exact local_pure x

lemma Local.parses_bind (hp : Local p) (hf : ∀ x, Local (f x)) (h : Parses (p >>= f) l y) :
    ∃ l₁ l₂ x, l = l₁ ++ l₂ ∧ Parses p l₁ x ∧ Parses (f x) l₂ y := by
  obtain ⟨x, i', hx, hy⟩ := bind_eq_ok.mp (h [] 0)
  obtain ⟨l₁, hl₁, hpx⟩ := hp _ x i' hx
  obtain ⟨l₂, hl₂, hfy⟩ := hf x i' y _ hy
  simp only [append_nil] at hl₁ hl₂
  exact ⟨l₁, l₂, x, by rw [hl₁, hl₂], hpx, hfy⟩

lemma eq_nil_of_parses_ofExcept {r : Except ε α} (h : Parses (ofExcept r) l x) :
    l = [] ∧ r = .ok x := by
  have hrun := h [] 0
  cases r with
  | error e => cases hrun
  | ok y =>
    simp only [ofExcept, Except.map, Except.ok.injEq, Prod.mk.injEq, Input.mk.injEq,
      append_nil] at hrun
    exact ⟨hrun.2.1, by rw [hrun.1]⟩

lemma Local.parses_of_ofExcept (hp : Local p) {g : α → Except ε β}
    (h : Parses (p >>= fun x => ofExcept (g x)) l y) : ∃ x, Parses p l x ∧ g x = .ok y := by
  obtain ⟨l₁, l₂, x, rfl, hx, hy⟩ := hp.parses_bind (fun _ => local_ofExcept _) h
  obtain ⟨rfl, hok⟩ := eq_nil_of_parses_ofExcept hy
  rw [append_nil]
  exact ⟨x, hx, hok⟩

lemma Local.parses_of_map (hp : Local p) {g : α → β}
    (h : Parses (p >>= fun x => pure (g x)) l y) : ∃ x, Parses p l x ∧ g x = y := by
  obtain ⟨x, hx, hy⟩ := hp.parses_of_ofExcept (g := fun x => .ok (g x)) h
  exact ⟨x, hx, Except.ok.inj hy⟩

lemma Parses.of_mapError (h : Parses (p.mapError g) l x) : Parses p l x :=
  fun m k => mapError_eq_ok.mp (h m k)

lemma Consumes.bind (hc : Consumes p) (hp : Local p) : Consumes (p >>= f) := by
  intro l y h
  obtain ⟨x, i', hx, -⟩ := bind_eq_ok.mp (h [] 0)
  obtain ⟨l₁, hl₁, hpx⟩ := hp _ x i' hx
  rintro rfl
  exact hc l₁ x hpx (append_eq_nil_iff.mp hl₁.symm).1

lemma consumes_next : Consumes (next e : Parser ε τ τ) := by
  rintro l x h rfl
  exact absurd (h [] 0) (by simp [next])

lemma consumes_slice (e : ℕ → ε) (hn : n ≠ 0) : Consumes (slice e n : Parser ε τ (List τ)) := by
  rintro l x h rfl
  have hrun := h [] 0
  rw [slice, if_pos (show ([] ++ [] : List τ).length < n from Nat.pos_of_ne_zero hn)] at hrun
  cases hrun

lemma consumes_fail : Consumes (fail e : Parser ε τ α) := by
  intro l x h
  cases h [] 0

lemma Consumes.mapError (hc : Consumes p) (g : ℕ → ε → ε') : Consumes (p.mapError g) :=
  fun l x h => hc l x h.of_mapError

lemma Consumes.locate {p : Parser (ℕ → ε) τ α} (hc : Consumes p) : Consumes p.locate :=
  hc.mapError _

lemma Consumes.located (hc : Consumes p) : Consumes p.located := hc.mapError _

/-! ## Items until nothing is left -/

/-- The input consists of pieces that are parsed one by one. -/
inductive Pieces (p : Parser ε τ α) : List τ → List α → Prop
  | nil : Pieces p [] []
  | cons {l l' : List τ} {x : α} {xs : List α} (hne : l ≠ []) (hx : Parses p l x)
      (hxs : Pieces p l' xs) : Pieces p (l ++ l') (x :: xs)

variable {xs ys : List α}

lemma Pieces.append {a b : List τ} (ha : Pieces p a xs) (hb : Pieces p b ys) :
    Pieces p (a ++ b) (xs ++ ys) := by
  induction ha with
  | nil => exact hb
  | cons hne hx _ ih =>
    rw [append_assoc]
    exact .cons hne hx ih

lemma Pieces.exists_parses (h : Pieces p l xs) : ∀ x ∈ xs, ∃ l, Parses p l x := by
  induction h with
  | nil => simp
  | cons _ hx _ ih => exact forall_mem_cons.mpr ⟨⟨_, hx⟩, ih⟩

lemma Pieces.of_append {a b : List τ} (ha : Pieces p a xs) (h : Pieces p (a ++ b) ys) :
    ∃ zs, ys = xs ++ zs ∧ Pieces p b zs := by
  induction ha generalizing ys with
  | nil => exact ⟨ys, rfl, h⟩
  | @cons l l' x xs hne hx _ ih =>
    rw [append_assoc] at h
    generalize heq : l ++ (l' ++ b) = input at h
    cases h with
    | nil => exact absurd (append_eq_nil_iff.mp heq).1 hne
    | @cons m m' y ys _ hy hys =>
      obtain ⟨rfl, rfl⟩ := hx.cancel hy heq
      obtain ⟨zs, rfl, hzs⟩ := ih hys
      exact ⟨zs, rfl, hzs⟩

lemma Parses.pieces (h : Parses p l x) (hl : l ≠ []) : Pieces p l [x] := by
  have hpieces := Pieces.cons hl h .nil
  rwa [append_nil] at hpieces

lemma Pieces.many {k : ℕ} (h : Pieces p l xs) (hn : l.length ≤ n) :
    many p n ⟨l, k⟩ = .ok (xs, ⟨[], k + l.length⟩) := by
  induction h generalizing n k with
  | nil => cases n <;> rfl
  | @cons l l' x xs hne hx _ ih =>
    have hpos := length_pos_iff.mpr hne
    rw [length_append] at hn
    obtain ⟨n, rfl⟩ := Nat.exists_eq_add_of_le' (show 1 ≤ n by omega)
    rw [Parser.many]
    beta_reduce
    rw [if_neg (by simp [hne])]
    refine bind_eq_ok.mpr ⟨x, _, hx l' k, bind_eq_ok.mpr ⟨xs, _, ih (by omega), ?_⟩⟩
    rw [length_append, ← Nat.add_assoc]
    rfl

lemma pieces_of_many (hp : Local p) (hc : Consumes p) {i' : Input τ} (hn : i.rest.length ≤ n)
    (h : many p n i = .ok (xs, i')) : Pieces p i.rest xs := by
  induction n generalizing i xs with
  | zero =>
    obtain ⟨rfl, rfl⟩ := Prod.mk.inj (Except.ok.inj h)
    rw [length_eq_zero_iff.mp (Nat.le_zero.mp hn)]
    exact .nil
  | succ n ih =>
    rw [many] at h
    beta_reduce at h
    split_ifs at h with hrest
    · obtain ⟨rfl, rfl⟩ := Prod.mk.inj (Except.ok.inj h)
      rw [hrest]
      exact .nil
    · obtain ⟨x, j, hx, h⟩ := bind_eq_ok.mp h
      obtain ⟨xs', j', hxs, h⟩ := bind_eq_ok.mp h
      obtain ⟨rfl, rfl⟩ := Prod.mk.inj (Except.ok.inj h)
      obtain ⟨l, hl, hparses⟩ := hp i x j hx
      have hne := hc l x hparses
      have hpos := length_pos_iff.mpr hne
      rw [hl, length_append] at hn
      rw [hl]
      exact .cons hne hparses (ih (by omega) hxs)

lemma all_eq_ok (hp : Local p) (hc : Consumes p) : all p l = .ok xs ↔ Pieces p l xs := by
  unfold all
  constructor
  · intro h
    cases hm : many p l.length ⟨l, 0⟩ with
    | error e =>
      rw [hm] at h
      cases h
    | ok r =>
      rw [hm] at h
      cases h
      exact pieces_of_many (i := ⟨l, 0⟩) hp hc (Nat.le_refl _) hm
  · intro h
    rw [h.many (Nat.le_refl _)]
    rfl

end Parser

end Fino.Lib
