import Brainfuck.Machine.Sink

/-!
# Deliveries

What comes of offering bytes to a writer until all are taken, whatever the writer
answers: `deliver_fits` says that either all of them were accepted, or the
delivery failed with a proper prefix accepted. `Stream.put_cases` tells the three
ways apart in which a character is put into a stream; everything said of streams
elsewhere is derived from these.
-/

namespace Brainfuck

/-- A delivery that has accepted all that was offered, or that failed with a part
of it missing. -/
inductive Delivery.Fits {ω : Type} (offered : List UInt8) : Delivery ω -> Prop where
  | complete {writer : ω} : Fits offered ⟨.ok (), offered, writer⟩
  | cut {failure : IoFailure} {taken : List UInt8} {writer : ω} (isFront : taken <+: offered)
      (proper : taken ≠ offered) (lasting : failure.isInterruption = false) :
      Fits offered ⟨.error failure, taken, writer⟩

/-- The bytes that were taken first stand in front of those of the later delivery. -/
theorem Delivery.Fits.after {ω : Type} {offered : List UInt8} {count : Nat} {later : Delivery ω}
    (fits : later.Fits (offered.drop count)) :
    Delivery.Fits offered ⟨later.result, offered.take count ++ later.accepted, later.writer⟩ := by
  have whole : offered.take count ++ offered.drop count = offered := List.take_append_drop ..
  cases fits with
  | complete =>
      rw [whole]
      exact .complete
  | @cut failure taken writer isFront proper lasting =>
      refine .cut ?_ ?_ lasting
      · have front := (List.prefix_append_right_inj (offered.take count)).mpr isFront
        rwa [whole] at front
      · intro same
        exact proper (List.append_cancel_left (same.trans whole.symm))

/-- A write took at least one byte, or was interrupted. -/
def Writer.TakesSome : Except IoFailure Nat -> Prop
  | .ok count => 0 < count
  | .error failure => failure.isInterruption = true

variable {ω : Type} [Writer ω]

section Writes

variable {offered : List UInt8} {writer next : ω}

/-- Nothing is written when nothing is left. -/
theorem deliver_nil (writer : ω) : deliver [] writer = ⟨.ok (), [], writer⟩ := by
  rw [deliver, if_pos rfl]

/-- A write that takes nothing ends a delivery. -/
theorem deliver_of_none (nonempty : offered ≠ [])
    (written : Writer.write offered writer = (.ok 0, next)) :
    deliver offered writer = ⟨.error .writeZero, [], next⟩ := by
  rw [deliver, if_neg nonempty]
  split <;> simp_all

/-- A write that takes some bytes leaves the others to be delivered. -/
theorem deliver_of_some {count : Nat} (nonempty : offered ≠ [])
    (written : Writer.write offered writer = (.ok (count + 1), next)) :
    deliver offered writer =
      ⟨(deliver (offered.drop (count + 1)) next).result,
        offered.take (count + 1) ++ (deliver (offered.drop (count + 1)) next).accepted,
        (deliver (offered.drop (count + 1)) next).writer⟩ := by
  rw [deliver, if_neg nonempty]
  split <;> simp_all

/-- A write that is interrupted leaves everything to be delivered. -/
theorem deliver_of_interrupted {failure : IoFailure} (nonempty : offered ≠ [])
    (written : Writer.write offered writer = (.error failure, next))
    (interrupted : failure.isInterruption = true) :
    deliver offered writer = deliver offered next := by
  rw [deliver, if_neg nonempty]
  split <;> simp_all

/-- A write that fails and is not interrupted ends a delivery. -/
theorem deliver_of_lasting {failure : IoFailure} (nonempty : offered ≠ [])
    (written : Writer.write offered writer = (.error failure, next))
    (lasting : failure.isInterruption = false) :
    deliver offered writer = ⟨.error failure, [], next⟩ := by
  rw [deliver, if_neg nonempty]
  split <;> simp_all

/-- Writers that answer the first write alike are delivered to alike. -/
theorem deliver_congr {first second : ω} (nonempty : offered ≠ [])
    (alike : Writer.write offered first = Writer.write offered second) :
    deliver offered first = deliver offered second := by
  rcases written : Writer.write offered second with ⟨failure | _ | count, next⟩
  · cases interruption : failure.isInterruption with
    | true =>
        rw [deliver_of_interrupted nonempty written interruption,
          deliver_of_interrupted nonempty (alike.trans written) interruption]
    | false =>
        rw [deliver_of_lasting nonempty written interruption,
          deliver_of_lasting nonempty (alike.trans written) interruption]
  · rw [deliver_of_none nonempty written, deliver_of_none nonempty (alike.trans written)]
  · rw [deliver_of_some nonempty written, deliver_of_some nonempty (alike.trans written)]

end Writes

/-- Every delivery fits what was offered, under every chunking and interruption. -/
theorem deliver_fits (offered : List UInt8) (writer : ω) :
    (deliver offered writer).Fits offered := by
  fun_induction deliver offered writer with
  | case1 => exact .complete
  | case2 offered writer nonempty => exact .cut List.nil_prefix (Ne.symm nonempty) rfl
  | case3 offered writer nonempty count next answer atMost later inductionHypothesis =>
      exact inductionHypothesis.after
  | case4 offered writer nonempty failure next answer interrupted less inductionHypothesis =>
      exact inductionHypothesis
  | case5 offered writer nonempty failure next answer lasting =>
      exact .cut List.nil_prefix (Ne.symm nonempty) (Bool.eq_false_iff.mpr lasting)

namespace Stream

/-- The three ways in which a character is put: all of its bytes are delivered and
flushed, the delivery is cut off, or the flush fails after all are delivered. -/
inductive PutsAs (character : Char) (stream : Stream ω) :
    Except IoFailure Unit × Stream ω -> Prop where
  | delivered {writer flushed : ω}
      (complete : deliver (stream.codec.encode character) stream.writer =
        ⟨.ok (), stream.codec.encode character, writer⟩)
      (flush : Writer.flush writer = (.ok (), flushed)) :
      PutsAs character stream
        (.ok (), ⟨stream.codec, flushed, stream.delivered ++ stream.codec.encode character,
          stream.flushes + 1⟩)
  | cut {failure : IoFailure} {taken : List UInt8} {writer : ω}
      (partly : deliver (stream.codec.encode character) stream.writer =
        ⟨.error failure, taken, writer⟩)
      (isFront : taken <+: stream.codec.encode character)
      (proper : taken ≠ stream.codec.encode character)
      (lasting : failure.isInterruption = false) :
      PutsAs character stream
        (.error failure, ⟨stream.codec, writer, stream.delivered ++ taken, stream.flushes⟩)
  | unflushed {failure : IoFailure} {writer flushed : ω}
      (complete : deliver (stream.codec.encode character) stream.writer =
        ⟨.ok (), stream.codec.encode character, writer⟩)
      (flush : Writer.flush writer = (.error failure, flushed)) :
      PutsAs character stream
        (.error failure, ⟨stream.codec, flushed,
          stream.delivered ++ stream.codec.encode character, stream.flushes⟩)

/-- A character is put in one of the three ways. -/
theorem put_cases (character : Char) (stream : Stream ω) :
    PutsAs character stream (Sink.put character stream) := by
  have fits := deliver_fits (stream.codec.encode character) stream.writer
  show PutsAs character stream (put character stream)
  rcases delivery : deliver (stream.codec.encode character) stream.writer with
    ⟨result, accepted, writer⟩
  rw [delivery] at fits
  unfold put
  rw [delivery]
  cases fits with
  | complete =>
      rcases flush : Writer.flush writer with ⟨failure | _, flushed⟩
      · simp only [flush]
        exact .unflushed delivery flush
      · simp only [flush]
        exact .delivered delivery flush
  | cut isFront proper lasting => exact .cut delivery isFront proper lasting

end Stream

namespace WriteScript

/-- A write leaves the answers to flushes alone. -/
theorem flushes_write {offered : List UInt8} {script next : WriteScript}
    {answer : Except IoFailure Nat} (written : Writer.write offered script = (answer, next)) :
    next.flushes = script.flushes := by
  change write offered script = (answer, next) at written
  unfold write at written
  split at written <;> (cases written; rfl)

/-- A write adds no answers, and unless it takes everything it uses one up. -/
theorem length_write {offered : List UInt8} {script next : WriteScript}
    {answer : Except IoFailure Nat} (written : Writer.write offered script = (answer, next)) :
    next.writes.length ≤ script.writes.length ∧
      (answer ≠ .ok offered.length -> next.writes.length < script.writes.length) := by
  change write offered script = (answer, next) at written
  unfold write at written
  split at written <;> cases written
  · exact ⟨Nat.le_refl _, fun other => absurd rfl other⟩
  all_goals
    rename_i answers
    simp [answers]

/-- A flush that fails uses up its failure and leaves the answers to writes alone. -/
theorem flushes_of_flush_error {script flushed : WriteScript} {failure : IoFailure}
    (flush : Writer.flush script = (.error failure, flushed)) :
    script.flushes = some failure :: flushed.flushes ∧ flushed.writes = script.writes := by
  change WriteScript.flush script = (.error failure, flushed) at flush
  unfold WriteScript.flush at flush
  split at flush <;> cases flush
  rename_i answers
  exact ⟨answers, rfl⟩

/-- A delivery leaves the answers to flushes alone. -/
theorem flushes_deliver (offered : List UInt8) (script : WriteScript) :
    (deliver offered script).writer.flushes = script.flushes := by
  fun_induction deliver offered script with
  | case1 => rfl
  | case2 offered script nonempty next answer => exact flushes_write answer
  | case3 offered script nonempty count next answer atMost later inductionHypothesis =>
      exact inductionHypothesis.trans (flushes_write answer)
  | case4 offered script nonempty failure next answer interrupted less inductionHypothesis =>
      exact inductionHypothesis.trans (flushes_write answer)
  | case5 offered script nonempty failure next answer lasting => exact flushes_write answer

/-- A delivery adds no answers to writes, and one that fails uses up at least one. -/
theorem length_deliver (offered : List UInt8) (script : WriteScript) :
    (deliver offered script).writer.writes.length ≤ script.writes.length ∧
      ((deliver offered script).result ≠ .ok () ->
        (deliver offered script).writer.writes.length < script.writes.length) := by
  fun_induction deliver offered script with
  | case1 => exact ⟨Nat.le_refl _, fun failed => absurd rfl failed⟩
  | case2 offered script nonempty next answer =>
      have takesNone : (.ok 0 : Except IoFailure Nat) ≠ .ok offered.length := by
        intro all
        exact nonempty (List.length_eq_zero_iff.mp (Except.ok.inj all).symm)
      have fewer := (length_write answer).2 takesNone
      exact ⟨Nat.le_of_lt fewer, fun _ => fewer⟩
  | case3 offered script nonempty count next answer atMost later inductionHypothesis =>
      have before := (length_write answer).1
      obtain ⟨noMore, fewer⟩ := inductionHypothesis
      exact ⟨Nat.le_trans noMore before, fun failed => Nat.lt_of_lt_of_le (fewer failed) before⟩
  | case4 offered script nonempty failure next answer interrupted less inductionHypothesis =>
      have before := (length_write answer).2 (by simp)
      obtain ⟨noMore, -⟩ := inductionHypothesis
      have fewer := Nat.lt_of_le_of_lt noMore before
      exact ⟨Nat.le_of_lt fewer, fun _ => fewer⟩
  | case5 offered script nonempty failure next answer lasting =>
      have fewer := (length_write answer).2 (by simp)
      exact ⟨Nat.le_of_lt fewer, fun _ => fewer⟩

end WriteScript

namespace Spool

/-- A spool keeps everything that is delivered to it. -/
theorem deliver_eq (offered : List UInt8) (spool : Spool) :
    deliver offered spool = ⟨.ok (), offered, ⟨spool.written ++ offered⟩⟩ := by
  cases offered with
  | nil => simp [deliver_nil]
  | cons byte rest =>
      have written : Writer.write (byte :: rest) spool =
          (.ok (rest.length + 1), ⟨spool.written ++ (byte :: rest)⟩) := rfl
      simp [deliver_of_some (List.cons_ne_nil byte rest) written, deliver_nil]

/-- A character that is put is kept. -/
theorem put_eq (character : Char) (codec : Codec) (spool : Spool) (delivered : Array UInt8)
    (flushes : Nat) :
    Sink.put character (Stream.mk codec spool delivered flushes) =
      (.ok (), ⟨codec, ⟨spool.written ++ codec.encode character⟩,
        delivered ++ codec.encode character, flushes + 1⟩) := by
  show Stream.put character (Stream.mk codec spool delivered flushes) = _
  simp only [Stream.put, deliver_eq]
  rfl

end Spool

end Brainfuck
