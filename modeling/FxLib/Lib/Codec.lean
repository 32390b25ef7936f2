import Mathlib.Data.List.Basic

/-!
# Readers and writers

A writer puts its bytes behind what has been written, or fails for want of room; a reader takes
bytes from the front of what a stream holds. Both are state transformers that may fail, so a
message is a `do` block of its fields, and a round trip is put together field by field.
-/

namespace Codec

universe u

variable {σ β α γ : Type u}

/-! ### Writers -/

/-- `put` appends bytes to a stream, all or nothing, in any number of pieces. -/
structure Appends (put : List β → σ → Option σ) : Prop where
  nil : ∀ s, put [] s = some s
  append : ∀ a b s, put (a ++ b) s = (put a s).bind (put b)

/-- The writer puts `bytes`, and fails if and only if they do not fit. -/
def Encodes (put : List β → σ → Option σ) (w : StateT σ Option PUnit) (bytes : List β) : Prop :=
  ∀ s, w s = (put bytes s).map (PUnit.unit, ·)

section Writers

variable {put : List β → σ → Option σ} {w w' : StateT σ Option PUnit} {a b : List β}

theorem encodes_pure (hput : Appends put) : Encodes put (pure PUnit.unit) [] := by
  intro s
  rw [hput.nil]
  rfl

theorem Encodes.bind (hput : Appends put) (h : Encodes put w a) (h' : Encodes put w' b) :
    Encodes put (w >>= fun _ => w') (a ++ b) := by
  intro s
  rw [hput.append, show (w >>= fun _ => w') s = (w s).bind fun x => w' x.2 from rfl, h s]
  cases put a s with
  | none => rfl
  | some s' => exact h' s'

/-- A loop over a container. -/
theorem encodes_forM (hput : Appends put) {write : α → StateT σ Option PUnit}
    {bytes : α → List β} (h : ∀ x, Encodes put (write x) (bytes x)) (xs : List α) :
    Encodes put (xs.forM write) (xs.flatMap bytes) := by
  induction xs with
  | nil => exact encodes_pure hput
  | cons x xs ih => exact (h x).bind hput ih

end Writers

/-! ### Writers that nobody listens to -/

/-- The pieces until the first for which there is no room. -/
def fit : Nat → List (List β) → List β
  | _, [] => []
  | room, piece :: pieces =>
    if piece.length ≤ room then piece ++ fit (room - piece.length) pieces else []

theorem fit_length_le (room : Nat) (pieces : List (List β)) : (fit room pieces).length ≤ room := by
  induction pieces generalizing room with
  | nil => simp [fit]
  | cons piece pieces ih =>
    rw [fit]
    split_ifs with h
    · have hle := ih (room - piece.length)
      rw [List.length_append]
      omega
    · simp

theorem fit_of_le {room : Nat} {pieces : List (List β)} (h : pieces.flatten.length ≤ room) :
    fit room pieces = pieces.flatten := by
  induction pieces generalizing room with
  | nil => rfl
  | cons piece pieces ih =>
    rw [List.flatten_cons, List.length_append] at h
    rw [fit, if_pos (by omega), ih (by omega), List.flatten_cons]

theorem exists_fit_append (room : Nat) (pieces : List (List β)) :
    ∃ rest, pieces.flatten = fit room pieces ++ rest := by
  induction pieces generalizing room with
  | nil => exact ⟨[], rfl⟩
  | cons piece pieces ih =>
    rw [fit]
    split_ifs with h
    · obtain ⟨rest, hrest⟩ := ih (room - piece.length)
      exact ⟨rest, by rw [List.flatten_cons, hrest, List.append_assoc]⟩
    · exact ⟨_, rfl⟩

/-! ### Readers -/

/-- The reader takes `bytes` and answers `v`, whatever follows. -/
def Decodes (content : σ → List β) (r : StateT σ Option α) (bytes : List β) (v : α) : Prop :=
  ∀ s rest, content s = bytes ++ rest → ∃ s', r s = some (v, s') ∧ content s' = rest

/-- A loop that fills a container. -/
def replicateRead (r : StateT σ Option α) : Nat → StateT σ Option (List α)
  | 0 => pure []
  | n + 1 => do
    let x ← r
    let xs ← replicateRead r n
    return x :: xs

section Readers

variable {content : σ → List β} {r : StateT σ Option α} {k : α → StateT σ Option γ}
  {a b : List β} {v w' w'' : α} {w : γ}

theorem decodes_pure (v : α) : Decodes content (pure v) [] v :=
  fun s _ h => ⟨s, rfl, h⟩

theorem Decodes.bind (h : Decodes content r a v) (h' : Decodes content (k v) b w) :
    Decodes content (r >>= k) (a ++ b) w := by
  intro s rest hs
  obtain ⟨s', hr, hs'⟩ := h s (b ++ rest) (by rw [hs, List.append_assoc])
  obtain ⟨s'', hk, hs''⟩ := h' s' rest hs'
  refine ⟨s'', ?_, hs''⟩
  rw [show (r >>= k) s = (r s).bind fun x => k x.1 x.2 from rfl, hr]
  exact hk

/-- The last step of a reader computes what it answers. -/
theorem Decodes.map (h : Decodes content r a v) (f : α → γ) :
    Decodes content (r >>= fun x => pure (f x)) a (f v) := by
  have hbind := h.bind (k := fun x => pure (f x)) (decodes_pure (f v))
  rwa [List.append_nil] at hbind

theorem decodes_replicateRead {bytes : α → List β} {wire : α → α}
    (h : ∀ x, Decodes content r (bytes x) (wire x)) (xs : List α) :
    Decodes content (replicateRead r xs.length) (xs.flatMap bytes) (xs.map wire) := by
  induction xs with
  | nil => exact decodes_pure []
  | cons x xs ih => exact (h x).bind (ih.map _)

/-- A reader answers at most one value. -/
theorem Decodes.unique (h : Decodes content r a v) {v' : α} (h' : Decodes content r a v')
    (hstream : ∃ s rest, content s = a ++ rest) : v = v' := by
  obtain ⟨s, rest, hs⟩ := hstream
  obtain ⟨s₁, h₁, -⟩ := h s rest hs
  obtain ⟨s₂, h₂, -⟩ := h' s rest hs
  rw [h₁] at h₂
  exact (Prod.mk.inj (Option.some.inj h₂)).1

theorem length_replicateRead {n : Nat} {s s' : σ} {xs : List α}
    (h : replicateRead r n s = some (xs, s')) : xs.length = n := by
  induction n generalizing s s' xs with
  | zero =>
    obtain ⟨rfl, -⟩ := Prod.mk.inj (Option.some.inj h)
    rfl
  | succ n ih =>
    obtain ⟨⟨x, s₁⟩, -, hrest⟩ := Option.bind_eq_some_iff.mp h
    obtain ⟨⟨xs', s₂⟩, hxs, hlast⟩ := Option.bind_eq_some_iff.mp hrest
    obtain ⟨rfl, -⟩ := Prod.mk.inj (Option.some.inj hlast)
    rw [List.length_cons, ih hxs]

/-- What is read from the part that fits is the whole if and only if all of it fits. -/
theorem decodes_fit_iff {pieces : List (List β)} {room : Nat}
    (h : Decodes content r pieces.flatten w') (hcontent : ∀ bytes, ∃ s, content s = bytes) :
    Decodes content r (fit room pieces) w'' ↔ pieces.flatten.length ≤ room ∧ w' = w'' := by
  constructor
  · intro hfit
    obtain ⟨rest, hrest⟩ := exists_fit_append room pieces
    obtain ⟨s, hs⟩ := hcontent pieces.flatten
    obtain ⟨s₁, h₁, hend⟩ := h s [] (by rw [hs, List.append_nil])
    obtain ⟨s₂, h₂, hend'⟩ := hfit s rest (by rw [hs, hrest])
    rw [h₁] at h₂
    obtain ⟨rfl, rfl⟩ := Prod.mk.inj (Option.some.inj h₂)
    obtain rfl : rest = [] := by rw [← hend', hend]
    rw [List.append_nil] at hrest
    exact ⟨hrest ▸ fit_length_le room pieces, rfl⟩
  · rintro ⟨hle, rfl⟩
    rwa [fit_of_le hle]

end Readers

/-! ### Round trips -/

section RoundTrips

variable {τ : Type u} {put : List β → σ → Option σ} {content : τ → List β} {room : Nat}
  {w w' : StateT σ Option PUnit} {r : StateT τ Option α} {k : α → StateT τ Option γ} {v : α}
  {v' : γ}

/-- Whatever the writer puts within `room` is read as `v`. -/
def Travels (put : List β → σ → Option σ) (content : τ → List β) (room : Nat)
    (w : StateT σ Option PUnit) (r : StateT τ Option α) (v : α) : Prop :=
  ∃ bytes, Encodes put w bytes ∧ (bytes.length < room → Decodes content r bytes v)

theorem Travels.of {bytes : List β} (hw : Encodes put w bytes) (hr : Decodes content r bytes v) :
    Travels put content room w r v :=
  ⟨bytes, hw, fun _ => hr⟩

theorem travels_pure (hput : Appends put) (v : α) :
    Travels put content room (pure PUnit.unit) (pure v) v :=
  .of (encodes_pure hput) (decodes_pure v)

theorem Travels.bind (hput : Appends put) (h : Travels put content room w r v)
    (h' : Travels put content room w' (k v) v') :
    Travels put content room (w >>= fun _ => w') (r >>= k) v' := by
  obtain ⟨a, hw, hr⟩ := h
  obtain ⟨b, hw', hr'⟩ := h'
  refine ⟨a ++ b, hw.bind hput hw', fun hlen => ?_⟩
  rw [List.length_append] at hlen
  exact (hr (by omega)).bind (hr' (by omega))

theorem Travels.map (h : Travels put content room w r v) (f : α → γ) :
    Travels put content room w (r >>= fun x => pure (f x)) (f v) := by
  obtain ⟨bytes, hw, hr⟩ := h
  exact ⟨bytes, hw, fun hlen => (hr hlen).map f⟩

end RoundTrips

end Codec
