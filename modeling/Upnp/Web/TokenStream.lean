import Upnp.Lib.Machine
import Upnp.Web.Tokenizer

/-!
# What a scanner delivers

Runs of calls of a scanner, over a reader in memory or on a socket.  A log keeps
what the calls delivered, without the tokens that were pushed back; with what the
scanner has still unread it is to be the stream, at any time of the run.
-/

namespace Upnp.Web

open Upnp.Lib
open TokenType Exception

/-- What one call delivers. -/
inductive Delivery where
  | token (s : CString)
  | bytes (b : CString)
deriving DecidableEq, Repr

/-- The characters of a delivery. -/
def Delivery.text : Delivery → CString
  | .token s => s
  | .bytes b => b

/-- A delivery of a token. -/
def Delivery.isToken : Delivery → Bool
  | .token _ => true
  | .bytes _ => false

/-- The characters delivered; the log has the last delivery first. -/
def deliveredText : List Delivery → CString
  | [] => []
  | d :: log => deliveredText log ++ d.text

/-- The log without its last token, which is pushed back. -/
def takeBack : List Delivery → List Delivery
  | [] => []
  | .token _ :: log => log
  | .bytes b :: log => .bytes b :: takeBack log

/-- A scanner and what it delivered. -/
structure Session (σ : Type) where
  scanner : Tokenizer σ
  log : List Delivery

/-- The calls. -/
inductive Call where
  | getToken
  | pushBack
  | read (bufsize : Int)
deriving DecidableEq, Repr

section Runs

variable {σ : Type} [CharReader σ]

/-- The session after a call.  A call that throws delivers nothing. -/
def Session.call (s : Session σ) : Call → Session σ
  | .getToken =>
    match s.scanner.getToken with
    | (.ok t, scanner) => ⟨scanner, .token t.s :: s.log⟩
    | (.error _, scanner) => ⟨scanner, s.log⟩
  | .pushBack =>
    match s.scanner.pushBack with
    | (.ok (), scanner) => ⟨scanner, takeBack s.log⟩
    | (.error _, scanner) => ⟨scanner, s.log⟩
  | .read bufsize =>
    match s.scanner.read bufsize with
    | (.ok buf, scanner) => ⟨scanner, .bytes buf :: s.log⟩
    | (.error _, scanner) => ⟨scanner, s.log⟩

/-- The runs of a scanner on a reader. -/
def sessions (reader : σ) : Machine (Session σ) Call where
  init s := s = ⟨.new reader, []⟩
  step s c := some (s.call c)

end Runs

/-! ## What is unread -/

section Lawful

variable {σ : Type} [CharReader σ] [LawfulReader σ]

open LawfulReader

/-- The text that was pushed back. -/
def pendingText (pending : List Token) : CString := pending.flatMap Token.s

/-- What the scanner has not delivered yet. -/
def Tokenizer.unread (scanner : Tokenizer σ) : CString :=
  pendingText scanner.pending ++ left scanner.reader

/-- The calls after which everything is delivered once: a new token is spelled in what is left of
the stream, or the reader knows that the stream has ended; a token is pushed back that was
returned last; and bytes are read when no token is pushed back. -/
def Clean (s : Session σ) : Call → Prop
  | .getToken => s.scanner.pending ≠ [] ∨ Spelled (left s.scanner.reader) ∨
      CharReader.endOfStream s.scanner.reader
  | .pushBack => s.scanner.returned = [] ∨ s.log.head?.any Delivery.isToken
  | .read bufsize => bufsize ≤ 0 ∨ s.scanner.pending = []

instance (s : Session σ) : DecidablePred (Clean s)
  | .getToken => inferInstanceAs (Decidable (_ ∨ _ ∨ _))
  | .pushBack => inferInstanceAs (Decidable (_ ∨ _))
  | .read _ => inferInstanceAs (Decidable (_ ∨ _))

/-- The tokens up to `current` are the last ones of the log, as far as both go. -/
inductive Matches : List Token → List Delivery → Prop where
  | forgotten {log : List Delivery} : Matches [] log
  | start {returned : List Token} : Matches returned []
  | behind {returned : List Token} {log : List Delivery} {b : CString} :
    Matches returned (.bytes b :: log)
  | token {t : Token} {returned : List Token} {log : List Delivery} (h : Matches returned log) :
    Matches (t :: returned) (.token t.s :: log)

theorem Matches.take {returned : List Token} {log : List Delivery} (h : Matches returned log)
    (n : Nat) : Matches (returned.take n) log := by
  induction h generalizing n with
  | forgotten => simpa using .forgotten
  | start => exact .start
  | behind => exact .behind
  | token h ih =>
    cases n with
    | zero => exact .forgotten
    | succ n => exact .token (ih n)

/-- The state of a session that has delivered its stream so far. -/
structure Delivered (stream : CString) (s : Session σ) : Prop where
  ready : Ready s.scanner.reader
  text : deliveredText s.log ++ s.scanner.unread = stream
  returned : Matches s.scanner.returned s.log

variable {stream : CString} {s : Session σ}

omit [LawfulReader σ] in
/-- A token that was pushed back is returned again. -/
theorem getToken_pending {t : Token} {pending : List Token} (h : s.scanner.pending = t :: pending) :
    s.call .getToken =
      ⟨{ s.scanner with returned := t :: s.scanner.returned, pending }, .token t.s :: s.log⟩ := by
  unfold Session.call Tokenizer.getToken
  rw [h]

omit [LawfulReader σ] in
/-- A token that is read from the stream. -/
theorem getToken_new {t : Token} {reader : σ} (h : s.scanner.pending = [])
    (hread : readNextToken s.scanner.reader = (.ok t, reader)) :
    s.call .getToken =
      ⟨⟨(t :: s.scanner.returned).take Tokenizer.MAX_PUSHBACKS, [], reader⟩,
        .token t.s :: s.log⟩ := by
  unfold Session.call Tokenizer.getToken
  rw [h]
  dsimp only
  generalize readNextToken s.scanner.reader = got at hread ⊢
  subst hread
  rfl

theorem Delivered.getToken (h : Delivered stream s) (hclean : Clean s .getToken) :
    Delivered stream (s.call .getToken) := by
  cases hpending : s.scanner.pending with
  | cons t pending =>
    rw [getToken_pending hpending]
    refine ⟨h.ready, ?_, h.returned.token⟩
    have htext := h.text
    simp only [Tokenizer.unread, hpending, pendingText, List.flatMap_cons] at htext ⊢
    simpa only [deliveredText, Delivery.text, List.append_assoc] using htext
  | nil =>
    obtain ⟨t, reader, hread, hready, hleft⟩ : ∃ t reader,
        readNextToken s.scanner.reader = (.ok t, reader) ∧ Ready reader ∧
          left s.scanner.reader = t.s ++ left reader := by
      obtain hne | hspelled | heos := hclean
      · exact absurd hpending hne
      · exact readNextToken_spec h.ready hspelled
      · refine ⟨⟨END_OF_STREAM, []⟩, s.scanner.reader, ?_, h.ready, rfl⟩
        unfold readNextToken
        rw [if_pos heos]
    rw [getToken_new hpending hread]
    refine ⟨hready, ?_, h.returned.token.take _⟩
    have htext := h.text
    simp only [Tokenizer.unread, hpending, hleft] at htext ⊢
    simpa only [deliveredText, Delivery.text, pendingText, List.flatMap_nil, List.nil_append,
      List.append_assoc] using htext

theorem Delivered.pushBack (h : Delivered stream s) (hclean : Clean s .pushBack) :
    Delivered stream (s.call .pushBack) := by
  cases hreturned : s.scanner.returned with
  | nil =>
    have hcall : s.call .pushBack = s := by
      unfold Session.call Tokenizer.pushBack
      rw [hreturned]
    rw [hcall]
    exact h
  | cons t returned =>
    have hcall : s.call .pushBack =
        ⟨{ s.scanner with returned, pending := t :: s.scanner.pending }, takeBack s.log⟩ := by
      unfold Session.call Tokenizer.pushBack
      rw [hreturned]
    obtain hnil | htoken := hclean
    · rw [hreturned] at hnil
      cases hnil
    have hmatches := h.returned
    have htext := h.text
    rw [hcall]
    rw [hreturned] at hmatches
    generalize s.log = log at htoken hmatches htext ⊢
    cases hmatches with
    | start => cases htoken
    | behind => cases htoken
    | token hmatches =>
      refine ⟨h.ready, ?_, hmatches⟩
      simpa only [Tokenizer.unread, takeBack, deliveredText, Delivery.text, pendingText,
        List.flatMap_cons, List.append_assoc] using htext

/-- Reading when no token is pushed back. -/
theorem read_spec {scanner : Tokenizer σ} {bufsize : Int} (hready : Ready scanner.reader)
    (hpending : scanner.pending = []) (hsize : 0 < bufsize) :
    ∃ buf reader, scanner.read bufsize = (.ok buf, ⟨scanner.returned, [], reader⟩) ∧ Ready reader ∧
      left scanner.reader = buf ++ left reader ∧ (buf = [] → left scanner.reader = []) := by
  unfold Tokenizer.read
  rw [if_neg (not_le.mpr hsize), hpending]
  show ∃ buf reader, (if (0 : Int) < bufsize ∧ _ then _ else _) = _ ∧ _
  by_cases heos : CharReader.endOfStream scanner.reader = false
  · obtain ⟨bytes, reader, hread, hready', hleft, hnil⟩ :=
      LawfulReader.read_spec (n := bufsize.toNat) hready heos (by omega)
    refine ⟨bytes, reader, (if_pos ⟨hsize, heos⟩).trans ?_, hready', hleft, hnil⟩
    have hread' : CharReader.read scanner.reader (bufsize.toNat - ([] : CString).length) =
        (.ok bytes, reader) := hread
    generalize CharReader.read scanner.reader (bufsize.toNat - ([] : CString).length) = got
      at hread' ⊢
    subst hread'
    rfl
  · rw [Bool.not_eq_false] at heos
    have hleft := left_of_endOfStream heos
    refine ⟨[], scanner.reader, if_neg ?_, hready, rfl, fun _ ↦ hleft⟩
    rw [heos]
    simp

theorem Delivered.read (h : Delivered stream s) {bufsize : Int} (hclean : Clean s (.read bufsize)) :
    Delivered stream (s.call (.read bufsize)) := by
  by_cases hsize : 0 < bufsize
  · have hpending := hclean.resolve_left (not_le.mpr hsize)
    obtain ⟨buf, reader, hread, hready, hleft, -⟩ := read_spec h.ready hpending hsize
    have hcall : s.call (.read bufsize) =
        ⟨⟨s.scanner.returned, [], reader⟩, .bytes buf :: s.log⟩ := by
      unfold Session.call
      dsimp only
      rw [hread]
    rw [hcall]
    refine ⟨hready, ?_, .behind⟩
    have htext := h.text
    simp only [Tokenizer.unread, hpending, hleft] at htext ⊢
    simpa only [deliveredText, Delivery.text, pendingText, List.flatMap_nil, List.nil_append,
      List.append_assoc] using htext
  · have hcall : s.call (.read bufsize) = ⟨s.scanner, .bytes [] :: s.log⟩ := by
      unfold Session.call Tokenizer.read
      dsimp only
      rw [if_pos (not_lt.mp hsize)]
    rw [hcall]
    refine ⟨h.ready, ?_, .behind⟩
    simpa only [deliveredText, Delivery.text, List.append_nil] using h.text

/-- Every clean call keeps what was delivered a front of the stream. -/
theorem delivered_inductive {reader : σ} (hready : Ready reader) :
    (sessions reader).Inductive Clean (Delivered (left reader)) where
  init s hs := by
    cases hs
    exact ⟨hready, rfl, .start⟩
  step s c s' h hclean hs := by
    cases hs
    cases c with
    | getToken => exact h.getToken hclean
    | pushBack => exact h.pushBack hclean
    | read bufsize => exact h.read hclean

end Lawful

/-! ## Memory and sockets -/

/-- A new reader of a stream, in memory or on a socket. -/
inductive Opens : MemReader ⊕ NetReader → CString → Prop where
  | memory (buf : CString) : Opens (.inl ⟨buf, 0⟩) buf
  | socket (segments : List CString) :
    Opens (.inr (.new (segments.map .segment))) segments.flatten

theorem received_segments (segments : List CString) :
    Net.received (segments.map .segment) = segments.flatten := by
  induction segments with
  | nil => rfl
  | cons bytes segments ih =>
    show bytes ++ Net.received (segments.map .segment) = bytes ++ segments.flatten
    rw [ih]

theorem Opens.ready {reader : MemReader ⊕ NetReader} {stream : CString} (h : Opens reader stream) :
    LawfulReader.Ready reader ∧ LawfulReader.left reader = stream := by
  cases h with
  | memory => exact ⟨trivial, rfl⟩
  | socket segments =>
    refine ⟨⟨?_, le_rfl⟩, received_segments segments⟩
    show Arrival.failure ∉ segments.map Arrival.segment
    simp

/-- In a run of clean calls the characters delivered are the front of the stream that is not
unread, and bytes are read until there are none. -/
theorem tokens_and_bytes {reader : MemReader ⊕ NetReader} {stream : CString}
    (hopen : Opens reader stream) {s : Session (MemReader ⊕ NetReader)}
    (h : (sessions reader).Reach Clean s) :
    deliveredText s.log ++ s.scanner.unread = stream ∧
      ∀ bufsize : Int, 0 < bufsize → Clean s (.read bufsize) →
        (s.scanner.read bufsize).1 = .ok [] → s.scanner.unread = [] := by
  obtain ⟨hready, hleft⟩ := hopen.ready
  have hdelivered := h.invariant (delivered_inductive hready)
  rw [hleft] at hdelivered
  refine ⟨hdelivered.text, fun bufsize hsize hclean hread ↦ ?_⟩
  have hpending := hclean.resolve_left (not_le.mpr hsize)
  obtain ⟨buf, reader', heq, -, -, hnil⟩ := read_spec hdelivered.ready hpending hsize
  rw [heq] at hread
  cases hread
  unfold Tokenizer.unread
  rw [hpending, hnil rfl]
  rfl

/-- A socket that gets two segments. -/
def twoSegments : MemReader ⊕ NetReader := .inr (.new [.segment "a(".toList, .segment "b".toList])

/-- A token is pushed back and got again, and bytes are read behind it. -/
theorem tokens_and_bytes_once :
    ∃ s : Session (MemReader ⊕ NetReader),
      (sessions twoSegments).run ⟨.new twoSegments, []⟩
        [.getToken, .pushBack, .getToken, .read 9] = some s ∧
      s.log = [.bytes "(".toList, .token "a".toList] ∧
      deliveredText s.log ++ s.scanner.unread = "a(b".toList := by
  have h₀ : (sessions twoSegments).Reach Clean ⟨.new twoSegments, []⟩ := .init rfl
  have h₁ := h₀.step (l := .getToken) (by decide +kernel) rfl
  have h₂ := h₁.step (l := .pushBack) (by decide +kernel) rfl
  have h₃ := h₂.step (l := .getToken) (by decide +kernel) rfl
  have h₄ := h₃.step (l := .read 9) (by decide +kernel) rfl
  refine ⟨_, rfl, by decide +kernel, ?_⟩
  exact (tokens_and_bytes (.socket ["a(".toList, "b".toList]) h₄).1

/-- With a token pushed back, bytes begin with the token before it, and that one is lost. -/
theorem pushed_back_token_lost :
    ¬ ∀ (reader : MemReader ⊕ NetReader) (stream : CString), Opens reader stream →
      ∀ s : Session (MemReader ⊕ NetReader), (sessions reader).Reachable s →
        deliveredText s.log ++ s.scanner.unread = stream := by
  intro h
  have hreach : (sessions (.inl ⟨"ab cd".toList, 0⟩ : MemReader ⊕ NetReader)).Reachable _ :=
    Machine.Reach.of_run rfl [.getToken, .getToken, .pushBack, .read 10] (fun _ _ _ ↦ trivial) rfl
  have heq := h _ _ (.memory "ab cd".toList) _ hreach
  revert heq
  decide +kernel

end Upnp.Web
