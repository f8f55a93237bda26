import Mathlib.Data.List.Basic

/-! # Incremental decoders

A decoder is called with its state and what has arrived so far. It takes a frame off the
buffer, asks for more, or fails. A reader adds each chunk to the buffer and calls the
decoder until it asks for more; the first failure ends the reading.

`Steady` says that later bytes do not change what a decoder has made of the earlier ones.
From there it does not matter how a stream is cut into chunks: `feed_eq_drain`.
-/

namespace RemoteControl.Incremental

variable {σ β φ ε : Type*}

structure Decoder (σ β φ ε : Type*) where
  /-- The state and the buffer afterwards, and the frame if there is one. -/
  decode : σ → List β → σ × List β × Except ε (Option φ)
  size : σ → List β → Nat
  /-- Every frame takes something away. -/
  decreases : ∀ {s s' : σ} {buf buf' : List β} {f : φ},
    decode s buf = (s', buf', .ok (some f)) → size s' buf' < size s buf

/-- What a number of calls has led to. -/
structure Drained (σ β φ ε : Type*) where
  frames : List φ
  state : σ
  buffer : List β
  err : Option ε

def Drained.after (before : List φ) (r : Drained σ β φ ε) : Drained σ β φ ε :=
  { r with frames := before ++ r.frames }

/-- Calls the decoder until it asks for more or fails. -/
def Decoder.drain (d : Decoder σ β φ ε) (s : σ) (buf : List β) : Drained σ β φ ε :=
  match _called : d.decode s buf with
  | (s', buf', .ok (some f)) => (d.drain s' buf').after [f]
  | (s', buf', .ok none) => ⟨[], s', buf', none⟩
  | (s', buf', .error err) => ⟨[], s', buf', some err⟩
termination_by d.size s buf
decreasing_by exact d.decreases _called

/-- What reading chunks has led to; `unread` are those after a failure. -/
structure Fed (σ β φ ε : Type*) extends Drained σ β φ ε where
  unread : List (List β)

def Fed.after (before : List φ) (r : Fed σ β φ ε) : Fed σ β φ ε :=
  { r with frames := before ++ r.frames }

/-- What no decoder has taken, in the buffer or still to be read. -/
def Fed.unconsumed (r : Fed σ β φ ε) : List β := r.buffer ++ r.unread.flatten

/-- Reads chunks one after the other, draining the buffer after each of them. -/
def Decoder.feed (d : Decoder σ β φ ε) : σ → List β → List (List β) → Fed σ β φ ε
  | s, buf, [] => ⟨⟨[], s, buf, none⟩, []⟩
  | s, buf, chunk :: chunks =>
      let r := d.drain s (buf ++ chunk)
      match r.err with
      | none => (d.feed r.state r.buffer chunks).after r.frames
      | some _ => ⟨r, chunks⟩

section Drain

variable {d : Decoder σ β φ ε} {s s' : σ} {buf buf' : List β} {chunk : List β}
  {chunks : List (List β)} {err : ε}

theorem drain_of_frame {f : φ} (called : d.decode s buf = (s', buf', .ok (some f))) :
    d.drain s buf = (d.drain s' buf').after [f] := by
  rw [Decoder.drain]
  split <;> simp_all

theorem drain_of_none (called : d.decode s buf = (s', buf', .ok none)) :
    d.drain s buf = ⟨[], s', buf', none⟩ := by
  rw [Decoder.drain]
  split <;> simp_all

theorem drain_of_error (called : d.decode s buf = (s', buf', .error err)) :
    d.drain s buf = ⟨[], s', buf', some err⟩ := by
  rw [Decoder.drain]
  split <;> simp_all

/-- What holds of each frame that a decoder takes, and in the state after it again, holds of
    all that it drains. -/
theorem frames_of_drain {inv : σ → Prop} {good : φ → Prop}
    (keep : ∀ {s s' buf buf' f}, inv s → d.decode s buf = (s', buf', .ok (some f)) → inv s' ∧ good f)
    (inside : inv s) : ∀ f ∈ (d.drain s buf).frames, good f := by
  fun_induction Decoder.drain d s buf with
  | case1 s buf s' buf' f called ih =>
      obtain ⟨inside', here⟩ := keep inside called
      exact List.forall_mem_cons.mpr ⟨here, ih inside'⟩
  | case2 => exact List.forall_mem_nil _
  | case3 => exact List.forall_mem_nil _

theorem feed_of_none (fine : (d.drain s (buf ++ chunk)).err = none) :
    d.feed s buf (chunk :: chunks) =
      (d.feed (d.drain s (buf ++ chunk)).state (d.drain s (buf ++ chunk)).buffer chunks).after
        (d.drain s (buf ++ chunk)).frames := by
  simp only [Decoder.feed, fine]

theorem feed_of_error (failed : (d.drain s (buf ++ chunk)).err = some err) :
    d.feed s buf (chunk :: chunks) = ⟨d.drain s (buf ++ chunk), chunks⟩ := by
  simp only [Decoder.feed, failed]

end Drain

/-- In the states of an invariant, what a decoder has made of a buffer stays so when more
    arrives, and a call that asked for more can be made again. -/
structure Steady (d : Decoder σ β φ ε) (inv : σ → Prop) : Prop where
  keep : ∀ {s s' : σ} {buf buf' : List β} {r : Except ε (Option φ)},
    inv s → d.decode s buf = (s', buf', r) → inv s'
  frame : ∀ {s s' : σ} {buf buf' : List β} {f : φ} (more : List β), inv s →
    d.decode s buf = (s', buf', .ok (some f)) →
    d.decode s (buf ++ more) = (s', buf' ++ more, .ok (some f))
  error : ∀ {s s' : σ} {buf buf' : List β} {err : ε} (more : List β), inv s →
    d.decode s buf = (s', buf', .error err) →
    d.decode s (buf ++ more) = (s', buf' ++ more, .error err)
  resume : ∀ {s s' : σ} {buf buf' : List β} (more : List β), inv s →
    d.decode s buf = (s', buf', .ok none) → d.decode s (buf ++ more) = d.decode s' (buf' ++ more)

/-- The decoder has asked for more and has nothing to do until it gets it. -/
def Settled (d : Decoder σ β φ ε) (s : σ) (buf : List β) : Prop :=
  d.decode s buf = (s, buf, .ok none)

namespace Steady

variable {d : Decoder σ β φ ε} {inv : σ → Prop} {s : σ} {buf : List β}

theorem drain_congr {s' : σ} {buf' : List β} (same : d.decode s buf = d.decode s' buf') :
    d.drain s buf = d.drain s' buf' := by
  rw [Decoder.drain, Decoder.drain, same]

/-- Draining leaves the decoder in the invariant, with nothing to do if it did not fail. -/
theorem drain_settled (steady : Steady d inv) (inside : inv s) :
    inv (d.drain s buf).state ∧
      ((d.drain s buf).err = none → Settled d (d.drain s buf).state (d.drain s buf).buffer) := by
  fun_induction Decoder.drain d s buf with
  | case1 s buf s' buf' f called ih => exact ih (steady.keep inside called)
  | case2 s buf s' buf' called =>
      refine ⟨steady.keep inside called, fun _ => ?_⟩
      have again := steady.resume [] inside called
      simp only [List.append_nil] at again
      exact again.symm.trans called
  | case3 s buf s' buf' err called => exact ⟨steady.keep inside called, nofun⟩

/-- A drained buffer can be drained further when more arrives; after a failure what
    arrives is only added to the buffer. -/
theorem drain_append (steady : Steady d inv) (inside : inv s) (more : List β) :
    d.drain s (buf ++ more) =
      match (d.drain s buf).err with
      | none => (d.drain (d.drain s buf).state ((d.drain s buf).buffer ++ more)).after
          (d.drain s buf).frames
      | some _ => { d.drain s buf with buffer := (d.drain s buf).buffer ++ more } := by
  induction s, buf using Decoder.drain.induct d with
  | case1 s buf s' buf' f called ih =>
      rw [drain_of_frame called, drain_of_frame (steady.frame more inside called),
        ih (steady.keep inside called)]
      cases failed : (d.drain s' buf').err with
      | none => simp only [Drained.after, failed, List.append_assoc]
      | some err => simp only [Drained.after, failed]
  | case2 s buf s' buf' called =>
      rw [drain_of_none called, drain_congr (steady.resume more inside called)]
      rfl
  | case3 s buf s' buf' err called =>
      rw [drain_of_error called, drain_of_error (steady.error more inside called)]

/-- However a stream is cut into chunks, reading it comes to the same as draining it
    at once. -/
theorem feed_eq_drain (steady : Steady d inv) (inside : inv s) (settled : Settled d s buf)
    (chunks : List (List β)) :
    (d.feed s buf chunks).frames = (d.drain s (buf ++ chunks.flatten)).frames ∧
      (d.feed s buf chunks).state = (d.drain s (buf ++ chunks.flatten)).state ∧
      (d.feed s buf chunks).err = (d.drain s (buf ++ chunks.flatten)).err ∧
      (d.feed s buf chunks).unconsumed = (d.drain s (buf ++ chunks.flatten)).buffer := by
  induction chunks generalizing s buf with
  | nil =>
      rw [List.flatten_nil, List.append_nil, drain_of_none settled]
      exact ⟨rfl, rfl, rfl, List.append_nil buf⟩
  | cons chunk chunks ih =>
      obtain ⟨inside', settled'⟩ := @drain_settled _ _ _ _ d inv s (buf ++ chunk) steady inside
      rw [List.flatten_cons, ← List.append_assoc, steady.drain_append inside]
      cases failed : (d.drain s (buf ++ chunk)).err with
      | none =>
          obtain ⟨frames, state, err, rest⟩ := ih inside' (settled' failed)
          rw [feed_of_none failed]
          exact ⟨congrArg ((d.drain s (buf ++ chunk)).frames ++ ·) frames, state, err, rest⟩
      | some err =>
          rw [feed_of_error failed]
          exact ⟨rfl, rfl, rfl, rfl⟩

end Steady

/-- Chunks stay unread only after a failure. -/
theorem unread_of_no_error {d : Decoder σ β φ ε} {s : σ} {buf : List β} {chunks : List (List β)}
    (fine : (d.feed s buf chunks).err = none) : (d.feed s buf chunks).unread = [] := by
  induction chunks generalizing s buf with
  | nil => rfl
  | cons chunk chunks ih =>
      cases failed : (d.drain s (buf ++ chunk)).err with
      | none =>
          rw [feed_of_none failed] at fine ⊢
          exact ih fine
      | some err =>
          rw [feed_of_error failed] at fine
          cases failed.symm.trans fine

/-- Called on what there is, the decoder takes these frames one after the other and then
    stands before `rest`. -/
inductive Decoder.Yields (d : Decoder σ β φ ε) : σ → List β → List φ → σ → List β → Prop
  | nil (s : σ) (buf : List β) : d.Yields s buf [] s buf
  | cons {s s' s'' : σ} {buf buf' rest : List β} {f : φ} {frames : List φ}
      (called : d.decode s buf = (s', buf', .ok (some f)))
      (later : d.Yields s' buf' frames s'' rest) : d.Yields s buf (f :: frames) s'' rest

variable {d : Decoder σ β φ ε} {inv : σ → Prop} {s s' s'' : σ} {buf buf' rest rest' : List β}
variable {frames frames' : List φ}

theorem Decoder.Yields.append (first : d.Yields s buf frames s' rest)
    (second : d.Yields s' rest frames' s'' rest') : d.Yields s buf (frames ++ frames') s'' rest' := by
  induction first with
  | nil => exact second
  | cons called _ ih => exact .cons called (ih second)

theorem Decoder.Yields.suffix (yields : d.Yields s buf frames s' rest)
    (leaves : ∀ s buf, (d.decode s buf).2.1 <:+ buf) : rest <:+ buf := by
  induction yields with
  | nil => exact List.suffix_rfl
  | @cons s _ _ buf _ _ _ _ called _ ih =>
      have left := leaves s buf
      rw [called] at left
      exact ih.trans left

/-- What arrives later comes after the frames. -/
theorem Steady.yields_append (steady : Steady d inv) (inside : inv s)
    (yields : d.Yields s buf frames s' rest) (more : List β) :
    d.Yields s (buf ++ more) frames s' (rest ++ more) := by
  induction yields with
  | nil => exact .nil _ _
  | cons called _ ih => exact .cons (steady.frame more inside called) (ih (steady.keep inside called))

variable {f g : φ} {more : List β} {err : ε}

/-- A frame that is taken early, from what has arrived, is the first one. -/
theorem Steady.yields_of_frame (steady : Steady d inv) (inside : inv s)
    (called : d.decode s buf = (s', buf', .ok (some f)))
    (yields : d.Yields s (buf ++ more) (g :: frames) s'' rest) :
    g = f ∧ d.Yields s' (buf' ++ more) frames s'' rest := by
  cases yields with
  | cons called' later =>
      have same := (steady.frame more inside called).symm.trans called'
      simp only [Prod.mk.injEq, Except.ok.injEq, Option.some.injEq] at same
      obtain ⟨rfl, rfl, rfl⟩ := same
      exact ⟨rfl, later⟩

/-- A call that asked for more takes nothing away from the frames. -/
theorem Steady.yields_of_none (steady : Steady d inv) (inside : inv s)
    (called : d.decode s buf = (s', buf', .ok none))
    (yields : d.Yields s (buf ++ more) (g :: frames) s'' rest) :
    d.Yields s' (buf' ++ more) (g :: frames) s'' rest := by
  cases yields with
  | cons called' later => exact .cons ((steady.resume more inside called).symm.trans called') later

theorem Steady.not_yields_of_error (steady : Steady d inv) (inside : inv s)
    (called : d.decode s buf = (s', buf', .error err)) :
    ¬ d.Yields s (buf ++ more) (g :: frames) s'' rest := by
  intro yields
  cases yields with
  | cons called' _ =>
      have same := (steady.error more inside called).symm.trans called'
      simp at same

end RemoteControl.Incremental
