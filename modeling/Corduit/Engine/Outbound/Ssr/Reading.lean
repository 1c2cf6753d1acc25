import Corduit.Engine.Outbound.Ssr.Stream

/-!
# What a reader of ShadowsocksR returns

Whatever the transport does, the reader returns what its cipher makes of the
bytes behind the IV, as long as the keystream lasts.
-/

namespace Corduit.Engine.Outbound.Ssr

open Crypto Transport Word

variable {encryptBlock : BlockCipher}

namespace SsrCipher

/-- The keystream lasts for a text of some length, wherever it is cut. -/
def Lasts (encryptBlock : BlockCipher) (cipher : SsrCipher) (count : Nat) : Prop :=
  ∀ front : List Byte, front.length < count →
    (steps (step encryptBlock) cipher front).2.exhausted = false

theorem Lasts.behind {cipher : SsrCipher} {front : List Byte} {count : Nat}
    (lasts : Lasts encryptBlock cipher (front.length + count)) :
    Lasts encryptBlock (steps (step encryptBlock) cipher front).2 count := by
  intro more short
  have all := lasts (front ++ more) (by rw [List.length_append]; omega)
  rwa [steps_append] at all

theorem Lasts.apply {cipher : SsrCipher} {buf : List Byte} {count : Nat}
    (lasts : Lasts encryptBlock cipher count) (some : 0 < count) :
    cipher.apply encryptBlock buf = .ok (steps (step encryptBlock) cipher buf) := by
  rw [apply_eq, if_neg]
  have fresh := lasts [] some
  exact Bool.eq_false_iff.mp fresh

end SsrCipher

namespace SsrStream

/-- The cipher that reads and the bytes that it is still to read: behind the IV,
when that is still to come. -/
inductive Reads (stream : SsrStream) (cipher : SsrCipher)
    (rest : List Byte) : Prop where
  | reading (started : stream.readCipher = some cipher)
      (ahead : stream.incoming ++ stream.inner.wire = rest)
  | starting (notYet : stream.readCipher = none) {iv : List Byte}
      (length : iv.length = stream.crypto.method.ivLen)
      (builds : stream.crypto.cipher iv = .ok cipher)
      (ahead : stream.incoming ++ stream.inner.wire = iv ++ rest)
  | silent (notYet : stream.readCipher = none) (nothing : stream.incoming = [])
      (ahead : stream.inner.wire = []) (none : rest = [])

/-- The text that is ahead of a stream. -/
structure Ahead (encryptBlock : BlockCipher)
    (allowed : IoError → Prop) (stream : SsrStream) (text : List Byte) : Prop where
  deciphers : ∃ cipher rest, stream.Reads cipher rest ∧
    SsrCipher.Lasts encryptBlock cipher rest.length ∧
    text = stream.ready.drop stream.readyPos ++ (steps (SsrCipher.step encryptBlock) cipher rest).1
  plain : stream.obfs.pending = []
  raises : Raises stream.inner.polls allowed

/-- What a reader delivers by: what is ahead, what the transport may still do
instead of giving bytes, and the errors that the transport raises. -/
def terms (encryptBlock : BlockCipher)
    (allowed : IoError → Prop) : Terms SsrStream where
  idle := allowed
  ahead := Ahead encryptBlock allowed
  effort := fun stream => stream.inner.polls.length
  ended := fun stream => stream.inner.wire = []

variable {allowed : IoError → Prop} {stream : SsrStream} {text : List Byte}

/-- Nothing can be decrypted without more bytes of the transport. -/
def Waiting (stream : SsrStream) : Prop :=
  stream.incoming = [] ∨
    stream.readCipher = none ∧ stream.incoming.length < stream.crypto.method.ivLen

section

variable {cipher : SsrCipher} {rest : List Byte}

theorem Reads.nil_of_waiting (reads : stream.Reads cipher rest) (waiting : stream.Waiting)
    (ended : stream.inner.wire = []) : rest = [] := by
  cases reads with
  | reading started ahead =>
      rcases waiting with nothing | ⟨notYet, _⟩
      · rw [← ahead, nothing, ended]
        rfl
      · rw [notYet] at started
        cases started
  | starting notYet length builds ahead =>
      rw [ended, List.append_nil] at ahead
      rcases waiting with nothing | ⟨_, short⟩
      · rw [nothing] at ahead
        exact (List.append_eq_nil_iff.mp ahead.symm).2
      · rw [ahead, List.length_append, length] at short
        omega
  | silent notYet nothing ahead none => exact none

theorem Reads.receive (count : Nat) (polls : List Poll) (reads : stream.Reads cipher rest) :
    Reads
      { stream with
        inner := ⟨stream.inner.wire.drop count, polls⟩
        incoming := stream.incoming ++ stream.inner.wire.take count } cipher rest := by
  have same : stream.incoming ++ stream.inner.wire.take count ++ stream.inner.wire.drop count =
      stream.incoming ++ stream.inner.wire := by
    rw [List.append_assoc, List.take_append_drop]
  cases reads with
  | reading started ahead => exact .reading started (same.trans ahead)
  | starting notYet length builds ahead => exact .starting notYet length builds (same.trans ahead)
  | silent notYet nothing ahead none =>
      refine .silent notYet ?_ ?_ none
      · rw [nothing, ahead, List.take_nil]
        rfl
      · rw [ahead, List.drop_nil]

theorem Reads.of_eq {stream' : SsrStream} (reads : stream.Reads cipher rest)
    (readCipher : stream'.readCipher = stream.readCipher) (crypto : stream'.crypto = stream.crypto)
    (incoming : stream'.incoming = stream.incoming)
    (wire : stream'.inner.wire = stream.inner.wire) :
    stream'.Reads cipher rest := by
  cases reads with
  | reading started ahead =>
      exact .reading (readCipher.trans started) (by rw [incoming, wire]; exact ahead)
  | starting notYet length builds ahead =>
      exact .starting (readCipher.trans notYet) (by rw [crypto]; exact length)
        (by rw [crypto]; exact builds) (by rw [incoming, wire]; exact ahead)
  | silent notYet nothing ahead none =>
      exact .silent (readCipher.trans notYet) (incoming.trans nothing) (wire.trans ahead) none

end

/-- What a turn of the loop keeps: what is ahead, with no more polls than there were. -/
def Keeps (encryptBlock : BlockCipher)
    (allowed : IoError → Prop) (text : List Byte) (polls : Nat) (stream : SsrStream) : Prop :=
  Ahead encryptBlock allowed stream text ∧ stream.inner.polls.length ≤ polls

/-- What further turns decrease. -/
def effort (stream : SsrStream) : Nat :=
  2 * stream.inner.wire.length + if stream.incoming = [] then 0 else 1

theorem receive_meets {room polls : Nat}
    (keeps : Keeps encryptBlock allowed text polls stream) (waiting : stream.Waiting)
    (empty : stream.ready = []) {before : Nat} (more : 2 * stream.inner.wire.length ≤ before) :
    stream.receive.Meets (Keeps encryptBlock allowed text polls) effort
      (Delivery (terms encryptBlock allowed) text room polls) before := by
  rcases keeps with ⟨⟨⟨cipher, rest, reads, lasts, text_eq⟩, plain, raises⟩, fewer⟩
  rw [SsrStream.receive]
  rcases stream.inner.read_cases (Nat.succ_pos (16 * 1024 - 1)) with
    ⟨count, polls', read_eq, some, within, later⟩ | ⟨error, polls', read_eq, later⟩
  · rw [read_eq]
    have fewer' := Nat.le_trans later.length_le fewer
    cases taken : stream.inner.wire.take count with
    | nil =>
        have ended : stream.inner.wire = [] :=
          (List.take_eq_nil_iff.mp taken).resolve_left (Nat.ne_of_gt some)
        have none := reads.nil_of_waiting waiting ended
        have nothing : text = [] := by
          rw [text_eq, none, empty, List.drop_nil]
          rfl
        have reads' := reads.receive count polls'
        rw [taken, List.append_nil] at reads'
        refine Delivery.gives (List.nil_append text).symm (Nat.zero_le _)
          (fun _ => Or.inr ⟨nothing, ?_⟩) ⟨⟨cipher, rest, reads', lasts, text_eq⟩, plain, ?_⟩ fewer'
        · exact (congrArg (List.drop count) ended).trans List.drop_nil
        · exact raises.suffix later
    | cons byte bytes =>
        have reads' := reads.receive count polls'
        have length : (stream.inner.wire.take count).length + (stream.inner.wire.drop count).length =
            stream.inner.wire.length := by
          rw [← List.length_append, List.take_append_drop]
        rw [taken] at reads' length
        rw [List.length_cons] at length
        dsimp only
        rw [PlainState.unwrap, plain]
        refine ⟨⟨⟨⟨cipher, rest, reads'.of_eq rfl rfl rfl rfl, lasts, text_eq⟩, rfl,
          raises.suffix later⟩, fewer'⟩, ?_⟩
        rw [effort, if_neg (by simp)]
        dsimp only
        omega
  · rw [read_eq]
    have raised : Poll.fails error ∈ stream.inner.polls := later ▸ List.mem_cons_self
    have suffix : polls' <:+ stream.inner.polls := later ▸ List.suffix_cons _ _
    have used : polls'.length < polls := by
      have length := congrArg List.length later
      rw [List.length_cons] at length
      exact Nat.lt_of_lt_of_le (Nat.lt_of_succ_le (Nat.le_of_eq length)) fewer
    exact Delivery.idles (raises error raised) ⟨⟨cipher, rest, reads.of_eq rfl rfl rfl rfl, lasts,
      text_eq⟩, plain, raises.suffix suffix⟩ used

theorem takeIv_spec {cipher : SsrCipher} {rest : List Byte}
    (reads : stream.Reads cipher rest) (some : stream.incoming ≠ []) :
    (stream.takeIv = (.ok none, stream) ∧ stream.Waiting) ∨
      ∃ incoming, stream.takeIv = (.ok (.some cipher),
          { stream with readCipher := .some cipher, incoming := incoming }) ∧
        incoming ++ stream.inner.wire = rest := by
  cases reads with
  | reading started ahead =>
      refine Or.inr ⟨stream.incoming, ?_, ahead⟩
      rw [takeIv, started]
      rcases stream
      cases started
      rfl
  | @starting notYet iv length builds ahead =>
      by_cases short : stream.incoming.length < stream.crypto.method.ivLen
      · refine Or.inl ⟨?_, Or.inr ⟨notYet, short⟩⟩
        rw [takeIv, notYet]
        exact if_pos short
      · have enough := Nat.le_of_not_lt short
        have front : stream.incoming.take stream.crypto.method.ivLen = iv := by
          have whole := congrArg (List.take stream.crypto.method.ivLen) ahead
          rwa [List.take_append_of_le_length enough, List.take_left' length] at whole
        have back : stream.incoming.drop stream.crypto.method.ivLen ++ stream.inner.wire = rest := by
          have whole := congrArg (List.drop stream.crypto.method.ivLen) ahead
          rwa [List.drop_append_of_le_length enough, List.drop_left' length] at whole
        refine Or.inr ⟨stream.incoming.drop stream.crypto.method.ivLen, ?_, back⟩
        rw [takeIv, notYet]
        dsimp only
        rw [if_neg short, front, builds]
  | silent notYet nothing ahead none => exact absurd nothing some

theorem drainIncoming_spec {polls : Nat}
    (keeps : Keeps encryptBlock allowed text polls stream) (empty : stream.ready = [])
    (start : stream.readyPos = 0) (some : stream.incoming ≠ []) :
    ∃ more stream', stream.drainIncoming encryptBlock = (.ok more, stream') ∧
      Keeps encryptBlock allowed text polls stream' ∧ stream'.inner = stream.inner ∧
      (more = true → stream'.incoming = []) ∧
      (more = false → stream'.Waiting ∧ stream'.ready = []) := by
  rcases keeps with ⟨⟨⟨cipher, rest, reads, lasts, text_eq⟩, plain, raises⟩, fewer⟩
  rw [drainIncoming]
  rcases takeIv_spec reads some with ⟨early, waiting⟩ | ⟨incoming, taken, ahead⟩
  · rw [early]
    exact ⟨false, stream, rfl, ⟨⟨⟨cipher, rest, reads, lasts, text_eq⟩, plain, raises⟩, fewer⟩, rfl,
      fun more => absurd more Bool.false_ne_true, fun _ => ⟨waiting, empty⟩⟩
  · rw [taken]
    dsimp only
    by_cases nothing : incoming = []
    · rw [if_pos (by rwa [List.isEmpty_iff])]
      exact ⟨false, _, rfl, ⟨⟨⟨cipher, rest, .reading rfl ahead, lasts, text_eq⟩, plain, raises⟩,
        fewer⟩, rfl, fun more => absurd more Bool.false_ne_true, fun _ => ⟨Or.inl nothing, empty⟩⟩
    · rw [if_neg (by rwa [List.isEmpty_iff])]
      subst ahead
      rw [List.length_append] at lasts
      have there := Nat.add_pos_left (List.length_pos_iff.mpr nothing) stream.inner.wire.length
      rw [lasts.apply there]
      refine ⟨true, _, rfl, ⟨⟨⟨(steps (SsrCipher.step encryptBlock) cipher incoming).2, _,
        .reading rfl rfl, lasts.behind, ?_⟩, plain, raises⟩, fewer⟩, rfl, fun _ => rfl,
        fun more => absurd more.symm Bool.false_ne_true⟩
      rw [text_eq, empty, start, steps_append]
      rfl

theorem ready_delivers {room polls take : Nat}
    (keeps : Keeps encryptBlock allowed text polls stream)
    (more : stream.readyPos < stream.ready.length) (positive : 0 < room)
    (take_eq : take = min (stream.ready.length - stream.readyPos) room) {ready : List Byte}
    {readyPos : Nat} (left : ready.drop readyPos = stream.ready.drop (stream.readyPos + take)) :
    Delivery (terms encryptBlock allowed) text room polls
      (.ok (slice stream.ready stream.readyPos take))
      { stream with ready := ready, readyPos := readyPos } := by
  rcases keeps with ⟨⟨⟨cipher, rest, reads, lasts, text_eq⟩, plain, raises⟩, fewer⟩
  have length : (slice stream.ready stream.readyPos take).length = take := by
    rw [slice, List.length_take, List.length_drop]
    omega
  have some : 0 < take := by omega
  apply Delivery.gives
  · rw [text_eq, ← List.take_append_drop take (stream.ready.drop stream.readyPos), List.drop_drop,
      List.append_assoc, ← left]
    rfl
  · rw [length, take_eq]
    exact Nat.min_le_right _ _
  · intro empty
    rw [empty] at length
    exact absurd length (Nat.ne_of_lt some)
  · exact ⟨⟨cipher, rest, reads.of_eq rfl rfl rfl rfl, lasts, rfl⟩, plain, raises⟩
  · exact fewer

theorem turn_meets {room polls : Nat} (positive : 0 < room)
    (keeps : Keeps encryptBlock allowed text polls stream) :
    (stream.turn encryptBlock room).Meets (Keeps encryptBlock allowed text polls) effort
      (Delivery (terms encryptBlock allowed) text room polls) stream.effort := by
  rw [turn]
  by_cases more : stream.readyPos < stream.ready.length
  · rw [if_pos more]
    dsimp only
    by_cases last : stream.readyPos + min (stream.ready.length - stream.readyPos) room =
        stream.ready.length
    · rw [if_pos last]
      refine ready_delivers keeps more positive rfl ?_
      rw [last, List.drop_length]
      rfl
    · rw [if_neg last]
      exact ready_delivers keeps more positive rfl rfl
  · rw [if_neg more]
    have cleared : Keeps encryptBlock allowed text polls
        { stream with ready := [], readyPos := 0 } := by
      rcases keeps with ⟨⟨⟨cipher, rest, reads, lasts, text_eq⟩, plain, raises⟩, fewer⟩
      rw [List.drop_eq_nil_of_le (Nat.le_of_not_lt more)] at text_eq
      exact ⟨⟨⟨cipher, rest, reads.of_eq rfl rfl rfl rfl, lasts, text_eq⟩, plain, raises⟩, fewer⟩
    by_cases some : stream.incoming = []
    · rw [if_neg (not_not_intro some), effort, if_pos some]
      exact receive_meets cleared (Or.inl some) rfl (Nat.le_refl _)
    · rw [if_pos some, effort, if_neg some]
      rcases drainIncoming_spec cleared rfl rfl some with
        ⟨drained, stream', drain_eq, keeps', inner, all, waits⟩
      rw [drain_eq]
      cases drained with
      | true =>
          refine ⟨keeps', ?_⟩
          rw [effort, if_pos (all rfl), inner]
          exact Nat.lt_succ_self _
      | false =>
          rcases waits rfl with ⟨waiting, empty⟩
          refine receive_meets keeps' waiting empty ?_
          rw [inner]
          exact Nat.le_succ _

/-- Every read delivers what is ahead. -/
theorem read_delivers (encryptBlock : BlockCipher)
    (allowed : IoError → Prop) :
    Delivers (read encryptBlock) (terms encryptBlock allowed) := by
  intro stream text room ahead
  rw [read]
  by_cases none : room = 0
  · rw [if_pos none]
    exact ⟨_, _, rfl, .gives (List.nil_append text).symm (Nat.zero_le _) (fun _ => Or.inl none) ahead
      (Nat.le_refl _)⟩
  · rw [if_neg none]
    have positive := Nat.pos_of_ne_zero none
    refine loop_returns (Keeps encryptBlock allowed text stream.inner.polls.length) effort
      (Delivery (terms encryptBlock allowed) text room stream.inner.polls.length)
      (fun stream keeps => turn_meets positive keeps) ⟨ahead, Nat.le_refl _⟩ ?_
    rw [effort]
    split
    · omega
    · omega

end SsrStream

end Corduit.Engine.Outbound.Ssr
