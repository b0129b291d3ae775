import P2PNetcat.Library.ByteCodec

/-!
# What a terminal client sends of its input

The loop of `PTYClient` that reads stdin and looks for `^Eq`. The reads may cut the input anywhere.
-/

namespace P2PNetcat.Session
open List ByteCodec

/-- The loop over one read: the flag and `output` after it, or nothing where `^Eq` ends it. -/
def filterRead : Bool → Bytes → Bytes → Option (Bool × Bytes)
  | escape, output, [] => some (escape, output)
  | true, output, value :: rest =>
    if value = 0x71 then none else filterRead false (output ++ [0x05, value]) rest
  | false, output, value :: rest =>
    if value = 0x05 then filterRead true output rest else filterRead false (output ++ [value]) rest

/-- The data frames that are sent, and whether `CloseWrite` and not a read error is the end. -/
def stdinLoop : Bool → List Bytes → List Bytes × Bool
  | _, [] => ([], false)
  | escape, buffer :: reads =>
    match filterRead escape [] buffer with
    | none => ([], true)
    | some (escape, output) =>
      let (frames, quit) := stdinLoop escape reads
      (if 0 < output.length then output :: frames else frames, quit)

def typed : Bytes → Bytes
  | [] => []
  | [value] => [value]
  | value :: next :: rest =>
    if value = 0x05 then if next = 0x71 then [] else value :: next :: typed rest
    else value :: typed (next :: rest)

/-- The `^E` that a read has left over. -/
def pending (escape : Bool) : Bytes := if escape then [0x05] else []

/-- The read in which `^Eq` ends holds nothing before it, and no `^E` is the end of the input. -/
def Kept : Bool → List Bytes → Prop
  | escape, [] => escape = false
  | escape, buffer :: reads =>
    match filterRead escape [] buffer with
    | none => [0x05, 0x71] <+: pending escape ++ buffer
    | some (escape, _) => Kept escape reads

theorem typed_cons {value : UInt8} (h : value ≠ 0x05) (rest : Bytes) :
    typed (value :: rest) = value :: typed rest := by
  cases rest with
  | nil => rfl
  | cons next rest => rw [typed, if_neg h]

theorem typed_of_filterRead {escape after : Bool} {output b more : Bytes}
    (h : filterRead escape output b = some (after, more)) (rest : Bytes) :
    output ++ typed (pending escape ++ (b ++ rest)) = more ++ typed (pending after ++ rest) := by
  fun_induction filterRead escape output b with
  | case1 => cases h; rfl
  | case2 => cases h
  | case3 output value b hvalue ih =>
    rw [← ih h, append_assoc]
    simp [pending, typed, hvalue]
  | case4 output b ih => exact ih h
  | case5 output value b hvalue ih =>
    rw [← ih h, append_assoc]
    exact congrArg (output ++ ·) (typed_cons hvalue _)

theorem typed_of_quit {escape : Bool} {output b : Bytes} (h : filterRead escape output b = none)
    (rest : Bytes) : output ++ typed (pending escape ++ (b ++ rest)) = [] ↔
      output = [] ∧ [0x05, 0x71] <+: pending escape ++ b := by
  fun_induction filterRead escape output b with
  | case1 => cases h
  | case2 output b => simp [pending, typed]
  | case3 output value b hvalue => simp [pending, typed, hvalue, Ne.symm hvalue]
  | case4 output b ih => exact ih h
  | case5 output value b hvalue =>
    rw [pending, if_neg (by decide), nil_append, nil_append, cons_append, typed_cons hvalue]
    simp [Ne.symm hvalue]

theorem stdinLoop_from (escape : Bool) (reads : List Bytes) :
    (stdinLoop escape reads).1.flatten = typed (pending escape ++ reads.flatten) ↔
      Kept escape reads := by
  induction reads generalizing escape with
  | nil => cases escape <;> simp [stdinLoop, typed, pending, Kept]
  | cons buffer reads ih =>
    rw [stdinLoop, Kept, flatten_cons]
    cases hread : filterRead escape [] buffer with
    | none =>
      have hquit := typed_of_quit hread reads.flatten
      rw [nil_append] at hquit
      rw [flatten_nil, eq_comm, hquit]
      exact and_iff_right rfl
    | some result =>
      obtain ⟨after, output⟩ := result
      have htyped := typed_of_filterRead hread reads.flatten
      have hframes : (if 0 < output.length then output :: (stdinLoop after reads).1
          else (stdinLoop after reads).1).flatten = output ++ (stdinLoop after reads).1.flatten := by
        cases output <;> rfl
      rw [nil_append] at htyped
      rw [htyped, hframes, append_right_inj, ih]

/-- However the input is cut into reads, it is forwarded up to `^Eq` exactly if no read holds
anything before the end of `^Eq` and the input does not end with `^E`. -/
theorem stdinLoop_forwards_iff (reads : List Bytes) :
    (stdinLoop false reads).1.flatten = typed reads.flatten ↔ Kept false reads :=
  stdinLoop_from false reads

/-- A pasted `a^Eq` loses the byte that is sent if it comes in a read of its own, and a last `^E`
is not sent at all. -/
theorem stdinLoop_loses :
    stdinLoop false [[0x61, 0x05, 0x71]] = ([], true) ∧
      stdinLoop false [[0x61], [0x05, 0x71]] = ([[0x61]], true) ∧
      stdinLoop false [[0x61, 0x05]] = ([[0x61]], false) := by
  decide

end P2PNetcat.Session
