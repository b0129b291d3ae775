import P2PNetcat.Library.ByteCodec

/-!
# Readers, writers and contexts

Go's `io.Reader` and `io.Writer` as state-passing functions, and the loops that read and write
exactly so many bytes through them. A context is known by the scopes that end it: its own and those
of the contexts it derives from.
-/

namespace GoIo
open List ByteCodec
variable {σ α : Type}

inductive Error where
  | eof | unexpectedEOF | shortWrite
  | text (message : String)
  | wrap (message : String) (cause : Error)
  deriving DecidableEq

/-- `errors.Is`. -/
def Error.is : Error → Error → Bool
  | .wrap message cause, target => .wrap message cause == target || cause.is target
  | e, target => e == target

/-- `Read` into a buffer of the given length. -/
abbrev Read (σ : Type) := Nat → σ → (Bytes × Option Error) × σ

/-- `Write`, with the number of bytes it took. -/
abbrev Write (σ : Type) := Bytes → σ → (Nat × Option Error) × σ

/-- A reader that returns `unread` in non-empty pieces, and `io.EOF` with the last or after it. -/
structure Reader (σ : Type) where
  read : Read σ
  unread : σ → Bytes
  read_some {n : Nat} {s t : σ} {data : Bytes} {e : Option Error} :
    0 < n → unread s ≠ [] → read n s = ((data, e), t) →
      data ≠ [] ∧ data.length ≤ n ∧ unread s = data ++ unread t ∧
        (e = none ∨ e = some .eof ∧ unread t = [])
  read_end {n : Nat} {s : σ} : 0 < n → unread s = [] →
    ∃ t, read n s = (([], some .eof), t) ∧ unread t = []

/-- A writer that takes some of the bytes it is given at each call. -/
structure Writer (σ : Type) where
  write : Write σ
  written : σ → Bytes
  write_some {value : Bytes} (s : σ) : value ≠ [] →
    ∃ count t, write value s = ((count + 1, none), t) ∧
      written t = written s ++ value.take (count + 1)

/-- The loop of `io.ReadAtLeast`, which a reader without progress could keep up for ever. -/
def fill (read : Read σ) : Nat → Nat → σ → (Bytes × Option Error) × σ
  | 0, _, s => (([], none), s)
  | fuel + 1, want, s =>
    if want = 0 then (([], none), s)
    else
      match read want s with
      | ((data, some e), s) => ((data, some e), s)
      | ((data, none), s) =>
        match fill read fuel (want - data.length) s with
        | ((more, e), s) => ((data ++ more, e), s)

def readFull (read : Read σ) (n : Nat) (s : σ) : Except Error Bytes × σ :=
  match fill read n n s with
  | ((data, e), s) =>
    if n ≤ data.length then (.ok data, s)
    else if data ≠ [] ∧ e = some .eof then (.error .unexpectedEOF, s)
    else (.error (e.getD .unexpectedEOF), s)

theorem fill_eq (R : Reader σ) {fuel want : Nat} (h : want ≤ fuel) (s : σ) :
    ∃ e t, fill R.read fuel want s = (((R.unread s).take want, e), t) ∧
      R.unread t = (R.unread s).drop want ∧ ((R.unread s).length < want → e = some .eof) := by
  induction fuel generalizing want s with
  | zero =>
    obtain rfl : want = 0 := by omega
    exact ⟨none, s, rfl, rfl, by simp⟩
  | succ fuel ih =>
    rw [fill]
    split
    · next hwant =>
      subst hwant
      exact ⟨none, s, rfl, rfl, by simp⟩
    · next hwant =>
      have hpos := Nat.pos_of_ne_zero hwant
      by_cases hend : R.unread s = []
      · obtain ⟨t, hread, hunread⟩ := R.read_end hpos hend
        exact ⟨_, t, by simp [hread, hend], by simp [hend, hunread], fun _ => rfl⟩
      obtain ⟨⟨data, e⟩, t, hread⟩ : ∃ d t, R.read want s = (d, t) := ⟨_, _, rfl⟩
      obtain ⟨hne, hlen, hunread, herr⟩ := R.read_some hpos hend hread
      have hdata := length_pos_iff.mpr hne
      rw [hread]
      rcases herr with rfl | ⟨rfl, ht⟩
      · obtain ⟨e, u, hfill, hu, he⟩ := ih (show want - data.length ≤ fuel by omega) t
        refine ⟨e, u, ?_, ?_, ?_⟩
        · simp only [hfill, hunread, take_append, take_of_length_le hlen]
        · rw [hu, hunread, drop_append, drop_of_length_le hlen, nil_append]
        · intro hlt
          rw [hunread, length_append] at hlt
          exact he (by omega)
      · rw [ht, append_nil] at hunread
        refine ⟨_, t, ?_, ?_, fun _ => rfl⟩
        · rw [hunread, take_of_length_le hlen]
        · rw [hunread, drop_of_length_le hlen, ht]

def shortRead (b : Bytes) : Error := if b = [] then .eof else .unexpectedEOF

theorem readFull_eq (R : Reader σ) (n : Nat) (s : σ) :
    ∃ t, R.unread t = (R.unread s).drop n ∧ readFull R.read n s =
      (if n ≤ (R.unread s).length then .ok ((R.unread s).take n)
        else .error (shortRead (R.unread s)), t) := by
  obtain ⟨e, t, hfill, hunread, herr⟩ := fill_eq R (Nat.le_refl n) s
  refine ⟨t, hunread, ?_⟩
  simp only [readFull, hfill, length_take]
  by_cases hlen : n ≤ (R.unread s).length
  · simp [hlen]
  have hlt := Nat.lt_of_not_le hlen
  rw [herr hlt, take_of_length_le (Nat.le_of_lt hlt), if_neg (by omega), if_neg hlen]
  unfold shortRead
  by_cases hnil : R.unread s = [] <;> simp [hnil]

/-- The loop that writes a value, with an error as soon as a call reports one or takes nothing. -/
def writeLoop (write : Write σ) : Nat → Bytes → σ → Option Error × σ
  | 0, _, s => (none, s)
  | fuel + 1, value, s =>
    if value = [] then (none, s)
    else
      match write value s with
      | ((_, some e), s) => (some e, s)
      | ((0, none), s) => (some .shortWrite, s)
      | ((count + 1, none), s) => writeLoop write fuel (value.drop (count + 1)) s

def writeAll (write : Write σ) (value : Bytes) (s : σ) : Option Error × σ :=
  writeLoop write value.length value s

theorem writeLoop_eq (W : Writer σ) {fuel : Nat} {value : Bytes} (h : value.length ≤ fuel) (s : σ) :
    ∃ t, writeLoop W.write fuel value s = (none, t) ∧ W.written t = W.written s ++ value := by
  induction fuel generalizing value s with
  | zero =>
    obtain rfl := length_eq_zero_iff.mp (Nat.le_zero.mp h)
    exact ⟨s, rfl, by simp⟩
  | succ fuel ih =>
    rw [writeLoop]
    split
    · next hvalue => exact ⟨s, rfl, by simp [hvalue]⟩
    next hvalue =>
    obtain ⟨count, t, hwrite, hwritten⟩ := W.write_some s hvalue
    have hlen : (value.drop (count + 1)).length ≤ fuel := by rw [length_drop]; omega
    obtain ⟨u, hloop, hu⟩ := ih hlen t
    refine ⟨u, by rw [hwrite]; exact hloop, ?_⟩
    rw [hu, hwritten, append_assoc, take_append_drop]

theorem writeAll_eq (W : Writer σ) (value : Bytes) (s : σ) :
    ∃ t, writeAll W.write value s = (none, t) ∧ W.written t = W.written s ++ value :=
  writeLoop_eq W (Nat.le_refl _) s

def writeEach (put : α → σ → Option Error × σ) : List α → σ → Option Error × σ
  | [], s => (none, s)
  | a :: rest, s =>
    match put a s with
    | (some e, s) => (some e, s)
    | (none, s) => writeEach put rest s

theorem writeEach_eq {put : α → σ → Option Error × σ} {written : σ → Bytes} {encode : α → Bytes}
    {values : List α} (h : ∀ a ∈ values, ∀ s, ∃ t, put a s = (none, t) ∧
      written t = written s ++ encode a) (s : σ) :
    ∃ t, writeEach put values s = (none, t) ∧ written t = written s ++ values.flatMap encode := by
  induction values generalizing s with
  | nil => exact ⟨s, rfl, by simp⟩
  | cons a rest ih =>
    obtain ⟨t, hput, ht⟩ := h a mem_cons_self s
    obtain ⟨u, hrest, hu⟩ := ih (fun b hb => h b (mem_cons_of_mem _ hb)) t
    refine ⟨u, by rw [writeEach, hput]; exact hrest, ?_⟩
    rw [hu, ht, append_assoc, flatMap_cons]

def Reader.bytewise : Reader Bytes where
  read _ s := if s = [] then (([], some .eof), s) else ((s.take 1, none), s.drop 1)
  unread s := s
  read_some hn hs hread := by
    rw [if_neg hs] at hread
    cases hread
    exact ⟨by simp [hs], by rw [length_take]; omega, (take_append_drop 1 _).symm, .inl rfl⟩
  read_end _ hs := ⟨_, if_pos hs, hs⟩

def Writer.bytewise : Writer Bytes where
  write value s := ((1, none), s ++ value.take 1)
  written s := s
  write_some _ _ := ⟨0, _, rfl, rfl⟩

end GoIo

namespace Contexts
universe u
variable {κ : Type u}

structure Context (κ : Type u) where
  scopes : List κ
  deriving DecidableEq

namespace Context

/-- `WithCancel`, and `WithTimeout` where a timer may cancel the scope too. -/
def withCancel (parent : Context κ) (scope : κ) : Context κ := ⟨scope :: parent.scopes⟩

/-- `Err() != nil`. -/
def ended (c : Context κ) (cancelled : κ → Bool) : Bool := c.scopes.any cancelled

variable {c : Context κ} {scope : κ} {cancelled : κ → Bool}

theorem ended_of_mem (hmem : scope ∈ c.scopes) (h : cancelled scope = true) :
    c.ended cancelled = true :=
  List.any_eq_true.mpr ⟨scope, hmem, h⟩

end Context

end Contexts
