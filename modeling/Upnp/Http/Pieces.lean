import Upnp.Http.Accounting
import Upnp.Http.Response

/-!
# Header lines that are longer than a buffer

`readLine` hands over a long line in pieces, and `getHeaders` looks at a piece only if the one
before it ends with CRLF.  When the CR and the LF of a line come in different pieces, the line
behind it is not looked at, be it a header or the empty line.
-/

namespace Upnp.Http

open Upnp.Lib

/-! ## What is looked at -/

/-- The pieces that the loop of `getHeaders` compares with its patterns. -/
def headerTrace (prev : Option SocketBuffer) (net : Net) : List (List Char) :=
  match hread : readLine (SOCKET_BUFFER_SIZE - 1) net with
  | (none, _) => []
  | (some [], _) => []
  | (some (c :: cs), net') =>
    let line := c :: cs
    let newLine := (foldPrev prev line).all (·.crlfEnded)
    let rest := if isLastLine newLine line then [] else headerTrace (some (.ofRead line)) net'
    if newLine then line :: rest else rest
termination_by net.size
decreasing_by
  have := size_of_readLine hread
  simp only [List.length_cons] at this
  omega

variable {malloc : Nat → Bool} {before : List SocketBuffer} {prev : Option SocketBuffer}
variable {total_size cl : Int} {net net' : Net} {line p u more bs : List Char} {n : Nat}

theorem headerTrace_of_readLine (hread : readLine (SOCKET_BUFFER_SIZE - 1) net = (some line, net'))
    (hne : line ≠ []) :
    headerTrace prev net = (if (foldPrev prev line).all (·.crlfEnded) then [line] else []) ++
      if isLastLine ((foldPrev prev line).all (·.crlfEnded)) line then []
      else headerTrace (some (.ofRead line)) net' := by
  obtain ⟨c, cs, rfl⟩ := List.exists_cons_of_ne_nil hne
  rw [headerTrace]
  split
  · rename_i heq
    rw [hread] at heq
    cases heq
  · rename_i heq
    rw [hread] at heq
    cases heq
  · rename_i heq
    rw [hread] at heq
    cases heq
    dsimp only
    by_cases hnew : (foldPrev prev (c :: cs)).all (·.crlfEnded)
    · rw [if_pos hnew, if_pos hnew]
      rfl
    · rw [if_neg hnew, if_neg hnew]
      rfl

/-- The content length is what these pieces say. -/
theorem contentLength_of_headerLoop {h : Headers}
    (hok : headerLoop malloc before prev total_size cl net = .ok h) :
    h.contentLength = lengthAtEnd ((headerTrace prev net).foldl lengthAfter cl) := by
  induction hsize : net.size using Nat.strong_induction_on generalizing before prev total_size cl
    net with
  | h size ih =>
    obtain ⟨line, net', hread, ⟨rfl, rfl⟩ | ⟨hne, newLine, cl', rfl, rfl, hcases⟩⟩ :=
      headerLoop_ok hok
    · rw [headerTrace]
      split
      · rfl
      · rfl
      · rename_i heq
        rw [hread] at heq
        cases heq
    · rw [headerTrace_of_readLine hread hne, List.foldl_append]
      have hfirst : (if (foldPrev prev line).all (·.crlfEnded) then [line] else []).foldl lengthAfter
          cl = if (foldPrev prev line).all (·.crlfEnded) then lengthAfter cl line else cl := by
        split
        · rfl
        · rfl
      rw [hfirst]
      rcases hcases with ⟨hlast, rfl⟩ | ⟨hlast, hloop⟩
      · rw [if_pos hlast]
        rfl
      · have hlt : net'.size < size := by
          have := size_of_readLine hread
          have := List.length_pos_iff.mpr hne
          omega
        rw [hlast]
        exact ih net'.size hlt hloop rfl

/-! ## Pieces -/

/-- A piece that is cut off because it is full, or at the end of its line, is read whatever comes
behind it. -/
theorem readLine_of_cut (hcut : cut n net.received = (line, more))
    (hfull : line.getLast? = some '\n' ∨ line.length = n) :
    ∃ net', readLine n net = (some line, net') ∧ net'.received = more := by
  induction n generalizing net line with
  | zero =>
    cases hcut
    exact ⟨net, rfl, rfl⟩
  | succ n ih =>
    cases hr : net.received with
    | nil =>
      rw [hr] at hcut
      cases hcut
      rcases hfull with h | h
      · cases h
      · cases h
    | cons b bs =>
      obtain ⟨net₁, hrecv, hbs⟩ := recv_one hr
      rw [hr, cut] at hcut
      rw [readLine, hrecv]
      by_cases hb : b = '\n'
      · subst hb
        rw [if_pos rfl] at hcut
        cases hcut
        exact ⟨net₁, rfl, hbs⟩
      · rw [if_neg hb] at hcut
        cases hcut
        have hfull' : (cut n bs).1.getLast? = some '\n' ∨ (cut n bs).1.length = n := by
          rcases hfull with h | h
          · left
            cases hl : (cut n bs).1 with
            | nil =>
              rw [hl] at h
              exact absurd (Option.some.inj h) hb
            | cons d l =>
              rw [hl, List.getLast?_cons_cons] at h
              exact h
          · exact .inr (Nat.succ.inj h)
        obtain ⟨net', hread, hmore⟩ := @ih net₁ (cut n bs).1 (by rw [hbs]) hfull'
        have hb' : ¬ [b] = ['\n'] := fun h ↦ hb (List.cons.inj h).1
        refine ⟨net', ?_, hmore⟩
        dsimp only
        rw [if_neg hb', hread]
        rfl

/-- A text that ends with LF is cut into pieces by itself, whatever follows it. -/
theorem cut_ended (hu : u.getLast? = some '\n') (hn : 0 < n) (more : List Char) :
    ∃ q, cut n u = ((cut n u).1, q) ∧ cut n (u ++ more) = ((cut n u).1, q ++ more) ∧
      u = (cut n u).1 ++ q ∧ (cut n u).1 ≠ [] ∧
      ((cut n u).1.getLast? = some '\n' ∨ (cut n u).1.length = n) ∧
      (q = [] ∨ q.getLast? = some '\n') := by
  induction n generalizing u with
  | zero => cases hn
  | succ n ih =>
    cases u with
    | nil => cases hu
    | cons b u =>
      rw [List.cons_append, cut, cut]
      by_cases hb : b = '\n'
      · rw [if_pos hb, if_pos hb, hb]
        refine ⟨u, rfl, rfl, rfl, List.cons_ne_nil _ _, .inl rfl, ?_⟩
        cases u with
        | nil => exact .inl rfl
        | cons c u =>
          rw [List.getLast?_cons_cons] at hu
          exact .inr hu
      · rw [if_neg hb, if_neg hb]
        have hu' : u.getLast? = some '\n' := by
          cases u with
          | nil => exact absurd (Option.some.inj hu) hb
          | cons c u => rwa [List.getLast?_cons_cons] at hu
        cases n with
        | zero => exact ⟨u, rfl, rfl, rfl, List.cons_ne_nil _ _, .inr rfl, .inr hu'⟩
        | succ n =>
          obtain ⟨q, hcut, hmore, happ, hne, hfull, hq⟩ := ih hu' (Nat.succ_pos n)
          dsimp only
          refine ⟨q, ?_, ?_, ?_, List.cons_ne_nil _ _, ?_, hq⟩
          · rw [congrArg Prod.snd hcut]
          · rw [hmore]
          · rw [List.cons_append, ← happ]
          · rcases hfull with h | h
            · left
              cases hl : (cut (n + 1) u).1 with
              | nil => exact absurd hl hne
              | cons d l =>
                rw [List.getLast?_cons_cons, ← hl]
                exact h
            · exact .inr (congrArg Nat.succ h)

/-- CRLF stands nowhere in the text but at its end. -/
def CrlfAtEnd (u : List Char) : Prop :=
  ∀ k, u[k]? = some '\r' → u[k + 1]? = some '\n' → k + 2 = u.length

theorem CrlfAtEnd.of_append {q : List Char} (h : CrlfAtEnd (p ++ q)) : CrlfAtEnd q := by
  intro k hcr hlf
  have hend := h (p.length + k)
    (by rw [List.getElem?_append_right (Nat.le_add_right _ _), Nat.add_sub_cancel_left]; exact hcr)
    (by rw [Nat.add_assoc, List.getElem?_append_right (Nat.le_add_right _ _),
          Nat.add_sub_cancel_left]; exact hlf)
  rw [List.length_append] at hend
  omega

/-- A piece in front of the last is not ended by CRLF. -/
theorem CrlfAtEnd.not_crlfEnded {q : List Char} (h : CrlfAtEnd (p ++ q)) (hq : q ≠ []) :
    crlfEnded p = false := by
  by_contra hended
  rw [Bool.not_eq_false] at hended
  have hlen := two_le_of_crlfEnded hended
  simp only [crlfEnded, SocketBuffer.crlfEnded, SocketBuffer.ofRead, Bool.and_eq_true] at hended
  have hend := h (p.length - 2)
    (by rw [List.getElem?_append_left (by omega)]; exact of_decide_eq_true hended.2)
    (by
      have hsucc : p.length - 2 + 1 = p.length - 1 := by omega
      rw [hsucc, List.getElem?_append_left (by omega)]
      exact of_decide_eq_true hended.1.2)
  rw [List.length_append] at hend
  have := List.length_pos_iff.mpr hq
  omega

/-- The last piece of a text that ends with CRLF is ended by CRLF, unless it is the LF alone. -/
theorem crlfEnded_of_ne (hp : ∃ w, w ++ p = u ++ ['\r', '\n']) (hne : p ≠ []) :
    crlfEnded p = !decide (p = ['\n']) := by
  obtain ⟨w, hw⟩ := hp
  obtain ⟨l, d, rfl⟩ := (List.eq_nil_or_concat' p).resolve_left hne
  have hsplit : w ++ l ++ [d] = (u ++ ['\r']) ++ ['\n'] := by
    rw [List.append_assoc, List.append_assoc]
    exact hw
  obtain ⟨hfront, hd⟩ := List.append_inj' hsplit rfl
  cases hd
  rcases List.eq_nil_or_concat' l with rfl | ⟨l, e, rfl⟩
  · rfl
  · have hsplit' : w ++ l ++ [e] = u ++ ['\r'] := by
      rw [List.append_assoc]
      exact hfront
    obtain ⟨-, he⟩ := List.append_inj' hsplit' rfl
    cases he
    have hne' : ¬ (l ++ ['\r'] ++ ['\n'] = ['\n']) := by
      intro heq
      have := congrArg List.length heq
      simp only [List.length_append, List.length_singleton] at this
      omega
    rw [decide_eq_false hne']
    simp [crlfEnded, SocketBuffer.crlfEnded, SocketBuffer.ofRead]

/-! ## The loop over the pieces of a line -/

/-- One turn of the loop on a piece that does not end the headers. -/
theorem headerLoop_piece (hmalloc : ∀ i, malloc i = true)
    (hread : readLine (SOCKET_BUFFER_SIZE - 1) net = (some line, net')) (hne : line ≠ [])
    (hlast : isLastLine ((foldPrev prev line).all (·.crlfEnded)) line = false) :
    headerLoop malloc before prev total_size cl net =
      headerLoop malloc (before ++ (foldPrev prev line).toList) (some (.ofRead line))
        (foldTotal prev total_size line)
        (if (foldPrev prev line).all (·.crlfEnded) then lengthAfter cl line else cl) net' := by
  rw [headerLoop_of_line hread hne]
  dsimp only
  rw [hlast, hmalloc]
  rfl

/-- Two points of the loop from which it goes on in the same way, with the pieces that are looked at
between them. -/
structure Passes (malloc : Nat → Bool) (before : List SocketBuffer) (prev : Option SocketBuffer)
    (total_size cl : Int) (net : Net) (trace : List (List Char)) (before' : List SocketBuffer)
    (prev' : Option SocketBuffer) (total_size' cl' : Int) (net' : Net) : Prop where
  loop : headerLoop malloc before prev total_size cl net =
    headerLoop malloc before' prev' total_size' cl' net'
  trace : headerTrace prev net = trace ++ headerTrace prev' net'

theorem Passes.trans {trace trace' : List (List Char)} {before' before'' : List SocketBuffer}
    {prev' prev'' : Option SocketBuffer} {total_size' total_size'' cl' cl'' : Int} {net'' : Net}
    (h : Passes malloc before prev total_size cl net trace before' prev' total_size' cl' net')
    (h' : Passes malloc before' prev' total_size' cl' net' trace' before'' prev'' total_size'' cl''
      net'') :
    Passes malloc before prev total_size cl net (trace ++ trace') before'' prev'' total_size'' cl''
      net'' where
  loop := h.loop.trans h'.loop
  trace := by rw [h.trace, h'.trace, List.append_assoc]

theorem Passes.piece (hmalloc : ∀ i, malloc i = true)
    (hread : readLine (SOCKET_BUFFER_SIZE - 1) net = (some line, net')) (hne : line ≠ [])
    (hlast : isLastLine ((foldPrev prev line).all (·.crlfEnded)) line = false) :
    Passes malloc before prev total_size cl net
      (if (foldPrev prev line).all (·.crlfEnded) then [line] else [])
      (before ++ (foldPrev prev line).toList) (some (.ofRead line)) (foldTotal prev total_size line)
      (if (foldPrev prev line).all (·.crlfEnded) then lengthAfter cl line else cl) net' where
  loop := headerLoop_piece hmalloc hread hne hlast
  trace := by
    rw [headerTrace_of_readLine hread hne, hlast]
    rfl

/-- Behind a piece that is not ended, the next one is not looked at. -/
theorem foldPrev_not_ended (hp : crlfEnded p = false) (line : List Char) :
    (foldPrev (some (.ofRead p)) line).all (·.crlfEnded) = false := by
  rw [foldPrev]
  split
  · rw [Option.map_some, SocketBuffer.chopCRLF]
    change (SocketBuffer.ofRead p).crlfEnded = false at hp
    rw [hp]
    exact hp
  · exact hp

/-- The rest of a line, behind a piece of it, is passed over. -/
theorem passes_rest (hmalloc : ∀ i, malloc i = true) (hu : u.getLast? = some '\n')
    (hcrlf : CrlfAtEnd u) (hp : crlfEnded p = false) (hreceived : net.received = u ++ more)
    (before : List SocketBuffer) (total_size : Int) :
    ∃ last before' total_size' net', (lines u).getLast? = some last ∧ net'.received = more ∧
      Passes malloc before (some (.ofRead p)) total_size cl net [] before' (some (.ofRead last))
        total_size' cl net' := by
  induction hsize : u.length using Nat.strong_induction_on generalizing u p net before
    total_size with
  | h size ih =>
    obtain ⟨q, hcut, hcutMore, happ, hne, hfull, hq⟩ := cut_ended hu
      (by decide : 0 < SOCKET_BUFFER_SIZE - 1) more
    have hlines := lines_of_cut hcut
    generalize (cut (SOCKET_BUFFER_SIZE - 1) u).1 = piece at *
    rw [if_neg hne] at hlines
    rw [← hreceived] at hcutMore
    obtain ⟨net₁, hread, hreceived₁⟩ := readLine_of_cut hcutMore hfull
    have hnew := foldPrev_not_ended hp piece
    have hpiece := @Passes.piece malloc before (some (.ofRead p)) total_size cl net net₁ piece hmalloc
      hread hne (by rw [hnew]; rfl)
    rw [hnew] at hpiece
    rcases hq with rfl | hq
    · refine ⟨piece, _, _, net₁, ?_, hreceived₁, hpiece⟩
      rw [hlines, lines_of_cut (rfl : cut (SOCKET_BUFFER_SIZE - 1) [] = ([], []))]
      rfl
    · have hqne : q ≠ [] := by
        rintro rfl
        cases hq
      have hlen := congrArg List.length happ
      rw [List.length_append] at hlen
      have hpos := List.length_pos_iff.mpr hne
      rw [happ] at hcrlf
      have hlt : q.length < size := by omega
      obtain ⟨last, before', total_size', net', hlast, hmore, hpasses⟩ := ih q.length hlt hq
        hcrlf.of_append (hcrlf.not_crlfEnded hqne) hreceived₁ _ _ rfl
      refine ⟨last, before', total_size', net', ?_, hmore, hpiece.trans hpasses⟩
      rw [hlines, List.getLast?_cons, hlast]
      rfl

/-! ## Header lines -/

/-- The text of a header line: it is not empty, and holds no CRLF. -/
structure IsHeaderText (t : List Char) : Prop where
  ne_nil : t ≠ []
  line : ∀ k, ¬ (t[k]? = some '\r' ∧ t[k + 1]? = some '\n')

/-- The CR and the LF of a line come in different pieces. -/
def Torn (t : List Char) : Prop := (lines (t ++ crlf)).getLast? = some ['\n']

instance (t : List Char) : Decidable (Torn t) := inferInstanceAs (Decidable (_ = _))

theorem IsHeaderText.crlfAtEnd {t : List Char} (h : IsHeaderText t) : CrlfAtEnd (t ++ crlf) := by
  intro k hcr hlf
  rw [crlf, List.length_append]
  rw [crlf] at hcr hlf
  rcases Nat.lt_or_ge (k + 1) t.length with hlt | hge
  · rw [List.getElem?_append_left (by omega)] at hcr
    rw [List.getElem?_append_left hlt] at hlf
    exact absurd ⟨hcr, hlf⟩ (h.line k)
  · rw [List.getElem?_append_right hge] at hlf
    have hlt := (List.getElem?_eq_some_iff.mp hlf).1
    change k + 1 - t.length < 2 at hlt
    rcases Nat.lt_or_ge k t.length with hk | hk
    · have hzero : k + 1 - t.length = 0 := by omega
      rw [hzero] at hlf
      exact absurd (Option.some.inj hlf) (by decide)
    · change k + 2 = t.length + 2
      omega

theorem getLast?_crlf (t : List Char) : (t ++ crlf).getLast? = some '\n' := by
  rw [crlf, List.getLast?_append]
  rfl

/-- The pieces of a stream are the stream. -/
theorem flatten_lines (bs : List Char) : (lines bs).flatten = bs ∧ [] ∉ lines bs := by
  induction hsize : bs.length using Nat.strong_induction_on generalizing bs with
  | h size ih =>
    have happ := cut_append (SOCKET_BUFFER_SIZE - 1) bs
    rw [lines]
    split
    · rename_i hnil
      cases bs with
      | nil => exact ⟨rfl, List.not_mem_nil⟩
      | cons b bs =>
        change (cut (4998 + 1) (b :: bs)).1 = [] at hnil
        rw [cut] at hnil
        split at hnil
        · cases hnil
        · cases hnil
    · rename_i hne
      have hlen := congrArg List.length happ
      have hpos := List.length_pos_iff.mpr hne
      rw [List.length_append] at hlen
      obtain ⟨hflatten, hmem⟩ := ih (cut (SOCKET_BUFFER_SIZE - 1) bs).2.length (by omega) _ rfl
      constructor
      · rw [List.flatten_cons, hflatten, happ]
      · rw [List.mem_cons, not_or]
        exact ⟨fun h ↦ hne h.symm, hmem⟩

/-- The LF of a line comes alone if and only if the pieces before it are full. -/
theorem getLast?_lines_iff (hu : '\n' ∉ u) (hne : u ≠ []) :
    (lines (u ++ ['\n'])).getLast? = some ['\n'] ↔ u.length % (SOCKET_BUFFER_SIZE - 1) = 0 := by
  induction hsize : u.length using Nat.strong_induction_on generalizing u with
  | h size ih =>
    have hpos := List.length_pos_iff.mpr hne
    rcases Nat.lt_or_ge u.length (SOCKET_BUFFER_SIZE - 1) with hlt | hge
    · rw [lines_of_cut (cut_of_line hu hlt), if_neg (List.append_ne_nil_of_left_ne_nil hne _),
        lines_of_cut (rfl : cut (SOCKET_BUFFER_SIZE - 1) [] = ([], [])), if_pos rfl, ← hsize,
        Nat.mod_eq_of_lt hlt]
      apply iff_of_false
      · intro h
        rw [List.getLast?_singleton, Option.some.injEq] at h
        have hlen := congrArg List.length h
        rw [List.length_append] at hlen
        exact hne (List.length_eq_zero_iff.mp (Nat.add_right_cancel hlen))
      · exact Nat.ne_of_gt hpos
    · have htake : (u.take (SOCKET_BUFFER_SIZE - 1)).length = SOCKET_BUFFER_SIZE - 1 :=
        List.length_take_of_le hge
      have hcut := @cut_of_full (u.drop (SOCKET_BUFFER_SIZE - 1) ++ ['\n'])
        (u.take (SOCKET_BUFFER_SIZE - 1)) (fun h ↦ hu (List.mem_of_mem_take h))
      rw [htake, ← List.append_assoc, List.take_append_drop] at hcut
      have htakeNe : u.take (SOCKET_BUFFER_SIZE - 1) ≠ [] := by
        intro h
        rw [h] at htake
        cases htake
      rw [lines_of_cut hcut, if_neg htakeNe, ← hsize, Nat.mod_eq_sub_mod hge, ← List.length_drop]
      by_cases hdrop : u.drop (SOCKET_BUFFER_SIZE - 1) = []
      · rw [hdrop, List.nil_append, lines_of_cut (rfl : cut (SOCKET_BUFFER_SIZE - 1) ['\n'] =
          (['\n'], [])), lines_of_cut (rfl : cut (SOCKET_BUFFER_SIZE - 1) [] = ([], []))]
        exact iff_of_true rfl rfl
      · have hlen := @List.length_drop _ (SOCKET_BUFFER_SIZE - 1) u
        have hlt : (u.drop (SOCKET_BUFFER_SIZE - 1)).length < size := by
          have hfull : 0 < SOCKET_BUFFER_SIZE - 1 := by decide
          omega
        have hrest := ih _ hlt (fun h ↦ hu (List.mem_of_mem_drop h)) hdrop rfl
        have hlast : (lines (u.drop (SOCKET_BUFFER_SIZE - 1) ++ ['\n'])).getLast? ≠ none := by
          intro h
          have hflatten := (flatten_lines (u.drop (SOCKET_BUFFER_SIZE - 1) ++ ['\n'])).1
          rw [List.getLast?_eq_none_iff.mp h] at hflatten
          exact List.append_ne_nil_of_left_ne_nil hdrop _ hflatten.symm
        obtain ⟨last, hlast⟩ := Option.ne_none_iff_exists'.mp hlast
        rw [hlast] at hrest
        rw [List.getLast?_cons, hlast]
        exact hrest

/-- Without a line feed in it, a line is torn if its text and the CR fill the buffers. -/
theorem torn_iff {t : List Char} (ht : '\n' ∉ t) :
    Torn t ↔ (t.length + 1) % (SOCKET_BUFFER_SIZE - 1) = 0 := by
  have hcr : '\n' ∉ t ++ ['\r'] := by
    rw [List.mem_append, not_or]
    exact ⟨ht, by decide⟩
  have hlast := getLast?_lines_iff hcr (List.append_ne_nil_of_right_ne_nil t (List.cons_ne_nil _ _))
  rw [List.append_assoc, List.length_append] at hlast
  exact hlast

/-- The last piece of a header line is ended unless the line is torn. -/
theorem crlfEnded_last {t last : List Char} (h : (lines (t ++ crlf)).getLast? = some last) :
    crlfEnded last = !decide (Torn t) := by
  obtain ⟨hflatten, hmem⟩ := flatten_lines (t ++ crlf)
  have hne : last ≠ [] := by
    rintro rfl
    exact hmem (List.mem_of_getLast? h)
  obtain ⟨ls, hls⟩ := List.getLast?_eq_some_iff.mp h
  rw [hls, List.flatten_append, List.flatten_singleton] at hflatten
  have htorn : Torn t ↔ last = ['\n'] := by
    rw [Torn, h, Option.some.injEq]
  rw [crlfEnded_of_ne ⟨_, hflatten⟩ hne, decide_eq_decide.mpr htorn]

/-- The first piece of a header line does not end the headers. -/
theorem IsHeaderText.not_last {t q : List Char} (ht : IsHeaderText t) (happ : t ++ crlf = p ++ q)
    (hfull : p.getLast? = some '\n' ∨ p.length = SOCKET_BUFFER_SIZE - 1) (newLine : Bool) :
    isLastLine newLine p = false := by
  by_contra hlast
  rw [Bool.not_eq_false] at hlast
  simp only [isLastLine, Bool.and_eq_true] at hlast
  obtain ⟨⟨-, htwo⟩, hcr⟩ := hlast
  have htwo := of_decide_eq_true htwo
  have hcr := of_decide_eq_true hcr
  obtain ⟨c, d, rfl⟩ := List.length_eq_two.mp htwo
  rcases hfull with hlf | hlen
  · have hend := ht.crlfAtEnd 0 (by rw [happ]; exact hcr) (by rw [happ]; exact hlf)
    rw [crlf, List.length_append] at hend
    exact ht.ne_nil (List.length_eq_zero_iff.mp (Nat.add_right_cancel hend).symm)
  · cases hlen

/-- A header line is passed over, and its first piece is looked at if the line before it is ended. -/
theorem passes_text {t : List Char} (hmalloc : ∀ i, malloc i = true) (ht : IsHeaderText t)
    (hreceived : net.received = t ++ crlf ++ more) (before : List SocketBuffer)
    (prev : Option SocketBuffer) (total_size cl : Int) :
    ∃ p last before' total_size' cl' net', p <+: t ++ crlf ∧
      (p.getLast? = some '\n' ∨ p.length = SOCKET_BUFFER_SIZE - 1) ∧
      (lines (t ++ crlf)).getLast? = some last ∧ net'.received = more ∧
      Passes malloc before prev total_size cl net
        (if (foldPrev prev p).all (·.crlfEnded) then [p] else []) before' (some (.ofRead last))
        total_size' cl' net' := by
  obtain ⟨q, hcut, hcutMore, happ, hne, hfull, hq⟩ := cut_ended (getLast?_crlf t)
    (by decide : 0 < SOCKET_BUFFER_SIZE - 1) more
  have hcrlf := ht.crlfAtEnd
  have hlines := lines_of_cut hcut
  generalize (cut (SOCKET_BUFFER_SIZE - 1) (t ++ crlf)).1 = p at *
  rw [if_neg hne] at hlines
  rw [← hreceived] at hcutMore
  obtain ⟨net₁, hread, hreceived₁⟩ := readLine_of_cut hcutMore hfull
  have hpiece := @Passes.piece malloc before prev total_size cl net net₁ p hmalloc hread hne
    (ht.not_last happ hfull _)
  have hprefix : p <+: t ++ crlf := ⟨q, happ.symm⟩
  rcases hq with rfl | hq
  · refine ⟨p, p, _, _, _, net₁, hprefix, hfull, ?_, hreceived₁, hpiece⟩
    rw [hlines, lines_of_cut (rfl : cut (SOCKET_BUFFER_SIZE - 1) [] = ([], []))]
    rfl
  · have hqne : q ≠ [] := by
      rintro rfl
      cases hq
    rw [happ] at hcrlf
    obtain ⟨last, before', total_size', net', hlast, hmore, hpasses⟩ := passes_rest hmalloc hq
      hcrlf.of_append (hcrlf.not_crlfEnded hqne) hreceived₁ _ _
    have hboth := hpiece.trans hpasses
    rw [List.append_nil] at hboth
    refine ⟨p, last, before', total_size', _, net', hprefix, hfull, ?_, hmore, hboth⟩
    rw [hlines, List.getLast?_cons, hlast]
    rfl

/-! ## Patterns -/

theorem prefix_of_prefix_append {α : Type} {w l m : List α} {c : α} (h : w <+: l ++ c :: m)
    (hc : c ∉ w) : w <+: l := by
  rcases List.prefix_or_prefix_of_prefix h (List.prefix_append l _) with hw | ⟨x, rfl⟩
  · exact hw
  · rw [List.prefix_append_right_inj] at h
    cases x with
    | nil => rw [List.append_nil]
    | cons d x =>
      obtain ⟨rfl, -⟩ := List.cons_prefix_cons.mp h
      exact absurd (List.mem_append_right l List.mem_cons_self) hc

/-- What the patterns for the content have in common. -/
structure IsPattern (w : CString) : Prop where
  fits : w.length < SOCKET_BUFFER_SIZE - 1
  cr : '\r' ∉ lower w
  lf : '\n' ∉ lower w
  ne_nil : w ≠ []
  notBlank : isContinuation (lower w) = false

theorem isPattern_of_mem {w : CString} (hw : w ∈ [pat, pat2]) : IsPattern w := by
  rcases List.mem_cons.mp hw with rfl | hw
  · exact ⟨by decide, by decide, by decide, by decide, by decide⟩
  · rw [List.mem_singleton.mp hw]
    exact ⟨by decide, by decide, by decide, by decide, by decide⟩

variable {w : CString} {t : List Char}

/-- A pattern is seen in the first piece of a line or nowhere. -/
theorem IsPattern.startsWithCase_piece (hw : IsPattern w) (hp : p <+: t ++ crlf)
    (hfull : p.getLast? = some '\n' ∨ p.length = SOCKET_BUFFER_SIZE - 1) :
    startsWithCase w p ↔ startsWithCase w t := by
  have hlower : lower p <+: lower t ++ crlf := by
    have hmap := hp.map Char.toLower
    rw [List.map_append] at hmap
    exact hmap
  rw [startsWithCase_iff, startsWithCase_iff]
  constructor
  · intro h
    exact prefix_of_prefix_append (h.trans hlower) hw.cr
  · intro h
    rcases List.prefix_or_prefix_of_prefix (h.trans (List.prefix_append _ crlf)) hlower with h | h
    · exact h
    · rcases hfull with hlf | hlen
      · have hmem := List.mem_map_of_mem (f := Char.toLower) (List.mem_of_getLast? hlf)
        exact absurd (h.mem hmem) hw.lf
      · have hle := h.length_le
        rw [lower, lower, List.length_map, List.length_map, hlen] at hle
        exact absurd hw.fits (Nat.not_lt.mpr hle)

/-- A continuation matches no pattern. -/
theorem IsPattern.not_continuation (hw : IsPattern w) (h : startsWithCase w p) :
    isContinuation p = false := by
  rw [startsWithCase_iff] at h
  have hblank := hw.notBlank
  have hne : lower w ≠ [] := fun h ↦ hw.ne_nil (List.map_eq_nil_iff.mp h)
  obtain ⟨c, cs, hlower⟩ := List.exists_cons_of_ne_nil hne
  rw [hlower] at h hblank
  cases p with
  | nil => rfl
  | cons d p =>
    obtain ⟨rfl, -⟩ := List.cons_prefix_cons.mp h
    by_contra hcont
    rw [Bool.not_eq_false] at hcont
    rcases (Bool.or_eq_true _ _).mp hcont with hsp | htab
    · cases Option.some.inj (of_decide_eq_true hsp)
      exact Bool.false_ne_true (hblank.symm.trans rfl)
    · cases Option.some.inj (of_decide_eq_true htab)
      exact Bool.false_ne_true (hblank.symm.trans rfl)

/-- A pattern is found in a header line if that is not behind a torn one. -/
theorem IsPattern.found_iff (hw : IsPattern w) (hp : p <+: t ++ crlf)
    (hfull : p.getLast? = some '\n' ∨ p.length = SOCKET_BUFFER_SIZE - 1)
    (prev : Option SocketBuffer) :
    (∃ l ∈ if (foldPrev prev p).all (·.crlfEnded) then [p] else [], startsWithCase w l) ↔
      ∃ l ∈ if prev.all (·.crlfEnded) then [t] else [], startsWithCase w l := by
  have hpiece := hw.startsWithCase_piece hp hfull
  by_cases hmatch : startsWithCase w p
  · have hfold : foldPrev prev p = prev := by
      rw [foldPrev, hw.not_continuation hmatch]
      rfl
    rw [hfold]
    split
    · exact iff_of_true ⟨p, List.mem_singleton_self p, hmatch⟩
        ⟨t, List.mem_singleton_self t, hpiece.mp hmatch⟩
    · exact Iff.rfl
  · apply iff_of_false
    · rintro ⟨l, hl, h⟩
      split at hl
      · rw [List.mem_singleton.mp hl] at h
        exact hmatch h
      · cases hl
    · rintro ⟨l, hl, h⟩
      split at hl
      · rw [List.mem_singleton.mp hl] at h
        exact hmatch (hpiece.mpr h)
      · cases hl

/-! ## Header blocks -/

/-- The header lines that are not behind a torn one. -/
def heard (fresh : Bool) : List (List Char) → List (List Char)
  | [] => []
  | t :: texts => (if fresh then [t] else []) ++ heard (!decide (Torn t)) texts

/-- The line behind the header lines is not behind a torn one. -/
def endHeard (fresh : Bool) (texts : List (List Char)) : Bool :=
  texts.foldl (fun _ t ↦ !decide (Torn t)) fresh

theorem mem_of_mem_heard {fresh : Bool} {texts : List (List Char)} (h : t ∈ heard fresh texts) :
    t ∈ texts := by
  induction texts generalizing fresh with
  | nil => exact h
  | cons s texts ih =>
    rcases List.mem_append.mp h with h | h
    · split at h
      · rw [List.mem_singleton.mp h]
        exact List.mem_cons_self
      · cases h
    · exact List.mem_cons_of_mem s (ih h)

/-- All header lines are passed over, and the patterns are found in those that are heard. -/
theorem passes_texts {texts : List (List Char)} (hmalloc : ∀ i, malloc i = true)
    (htexts : ∀ t ∈ texts, IsHeaderText t)
    (hreceived : net.received = texts.flatMap (· ++ crlf) ++ more) (before : List SocketBuffer)
    (prev : Option SocketBuffer) (total_size cl : Int) :
    ∃ trace before' prev' total_size' cl' net', net'.received = more ∧
      Passes malloc before prev total_size cl net trace before' prev' total_size' cl' net' ∧
      prev'.all (·.crlfEnded) = endHeard (prev.all (·.crlfEnded)) texts ∧
      ∀ w, IsPattern w → ((∃ l ∈ trace, startsWithCase w l) ↔
        ∃ t ∈ heard (prev.all (·.crlfEnded)) texts, startsWithCase w t) := by
  induction texts generalizing net before prev total_size cl with
  | nil => exact ⟨[], before, prev, total_size, cl, net, hreceived, ⟨rfl, rfl⟩, rfl, fun w hw ↦ Iff.rfl⟩
  | cons t texts ih =>
    rw [List.flatMap_cons, List.append_assoc] at hreceived
    obtain ⟨p, last, before₁, total₁, cl₁, net₁, hp, hfull, hlast, hreceived₁, hfirst⟩ :=
      passes_text hmalloc (htexts t List.mem_cons_self) hreceived before prev total_size cl
    obtain ⟨trace, before', prev', total', cl', net', hmore, hrest, hend, hfound⟩ :=
      ih (fun s hs ↦ htexts s (List.mem_cons_of_mem t hs)) hreceived₁ before₁
        (some (.ofRead last)) total₁ cl₁
    have hfresh : (some (SocketBuffer.ofRead last)).all (·.crlfEnded) = !decide (Torn t) :=
      crlfEnded_last hlast
    rw [hfresh] at hend hfound
    refine ⟨_, before', prev', total', cl', net', hmore, hfirst.trans hrest, hend, ?_⟩
    intro w hw
    simp only [heard, List.mem_append, or_and_right, exists_or]
    rw [hw.found_iff hp hfull, hfound w hw]

/-- A header block on a connection: its lines, and what comes behind the empty one. -/
structure HeaderBlock where
  texts : List (List Char)
  body : List Char
  net : Net
  texts_header : ∀ t ∈ texts, IsHeaderText t
  received : net.received = texts.flatMap (· ++ crlf) ++ (crlf ++ body)

namespace HeaderBlock

/-- The headers end at the empty line, and the content length is what the pieces that are looked at
say. -/
def Ends (b : HeaderBlock) : Prop :=
  ∀ malloc, getHeaders malloc b.net = .error UPNP_E_OUTOF_MEMORY ∨
    ∃ h, getHeaders malloc b.net = .ok h ∧ h.rest.received = b.body ∧
      h.buffers.getLast? = some (.ofRead crlf) ∧
      h.contentLength = lengthAtEnd ((headerTrace none b.net).foldl lengthAfter (-3))

/-- A pattern is found if and only if a header line begins with it. -/
def Finds (b : HeaderBlock) (w : CString) : Prop :=
  (∃ l ∈ headerTrace none b.net, startsWithCase w l) ↔ ∃ t ∈ b.texts, startsWithCase w t

/-- The end of the headers is recognised, and so are the two headers about the content. -/
def Recognised (b : HeaderBlock) : Prop := b.Ends ∧ ∀ w ∈ [pat, pat2], b.Finds w

end HeaderBlock

/-- When memory does not run out, the answers of `malloc` do not matter. -/
theorem headerLoop_memory (malloc : Nat → Bool) (before : List SocketBuffer)
    (prev : Option SocketBuffer) (total_size cl : Int) (net : Net) :
    headerLoop malloc before prev total_size cl net = .error UPNP_E_OUTOF_MEMORY ∨
      headerLoop malloc before prev total_size cl net =
        headerLoop (fun _ ↦ true) before prev total_size cl net := by
  induction hsize : net.size using Nat.strong_induction_on generalizing before prev total_size cl
    net with
  | h size ih =>
    rcases hread : readLine (SOCKET_BUFFER_SIZE - 1) net with ⟨answer, net'⟩
    cases answer with
    | none =>
      right
      rw [headerLoop_of_failed hread, headerLoop_of_failed hread]
    | some line =>
      by_cases hne : line = []
      · subst hne
        right
        rw [headerLoop_of_closed hread, headerLoop_of_closed hread]
      · have hlt : net'.size < size := by
          have := size_of_readLine hread
          have := List.length_pos_iff.mpr hne
          omega
        rw [headerLoop_of_line hread hne, headerLoop_of_line hread hne]
        dsimp only
        split
        · exact .inr rfl
        · split
          · exact .inl rfl
          · exact ih net'.size hlt _ _ _ _ net' rfl

/-- While `malloc` answers, memory does not run out. -/
theorem headerLoop_ne_memory (hmalloc : ∀ i, malloc i = true) :
    headerLoop malloc before prev total_size cl net ≠ .error UPNP_E_OUTOF_MEMORY := by
  induction hsize : net.size using Nat.strong_induction_on generalizing before prev total_size cl
    net with
  | h size ih =>
    rcases hread : readLine (SOCKET_BUFFER_SIZE - 1) net with ⟨answer, net'⟩
    cases answer with
    | none =>
      rw [headerLoop_of_failed hread]
      rintro ⟨⟩
    | some line =>
      by_cases hne : line = []
      · subst hne
        rw [headerLoop_of_closed hread]
        rintro ⟨⟩
      · have hlt : net'.size < size := by
          have := size_of_readLine hread
          have := List.length_pos_iff.mpr hne
          omega
        rw [headerLoop_of_line hread hne]
        dsimp only
        rw [hmalloc]
        split
        · rintro ⟨⟩
        · exact ih net'.size hlt rfl

/-- Headers end with the connection or take something from it. -/
theorem headerLoop_takes {h : Headers}
    (hok : headerLoop malloc before prev total_size cl net = .ok h) :
    h.buffers.getLast? = some (.ofRead []) ∨
      h.rest.received.length < net.received.length := by
  induction hsize : net.size using Nat.strong_induction_on generalizing before prev total_size cl
    net with
  | h size ih =>
    obtain ⟨line, net', hread, ⟨rfl, rfl⟩ | ⟨hne, newLine, cl', rfl, rfl, hcases⟩⟩ :=
      headerLoop_ok hok
    · left
      rw [List.getLast?_concat]
    · have hlen := congrArg List.length (cut_append (SOCKET_BUFFER_SIZE - 1) net.received)
      rw [cut_of_readLine hread, List.length_append] at hlen
      dsimp only at hlen
      have hpos := List.length_pos_iff.mpr hne
      rcases hcases with ⟨-, rfl⟩ | ⟨-, hloop⟩
      · right
        dsimp only
        omega
      · have hlt : net'.size < size := by
          have := size_of_readLine hread
          omega
        rcases ih net'.size hlt hloop rfl with hlast | hshort
        · exact .inl hlast
        · right
          omega

namespace HeaderBlock

/-- The empty line ends the headers if it is looked at. -/
theorem ends_of_heard {net : Net} (hreceived : net.received = crlf ++ bs)
    (hprev : prev.all (·.crlfEnded) = true) :
    ∃ h, headerLoop malloc before prev total_size cl net = .ok h ∧ h.rest.received = bs ∧
      h.buffers.getLast? = some (.ofRead crlf) ∧ headerTrace prev net = [crlf] := by
  have hcut : cut (SOCKET_BUFFER_SIZE - 1) net.received = (crlf, bs) := by
    rw [hreceived]
    rfl
  obtain ⟨net', hread, hbs⟩ := readLine_of_cut hcut (.inl rfl)
  have hfold : foldPrev prev crlf = prev := rfl
  have hlast : isLastLine (prev.all (·.crlfEnded)) crlf = true := by
    rw [hprev]
    rfl
  refine ⟨⟨foldTotal prev total_size crlf, lengthAtEnd (lengthAfter cl crlf),
    before ++ prev.toList ++ [.ofRead crlf], net'⟩, ?_, hbs, ?_, ?_⟩
  · rw [headerLoop_of_line hread (List.cons_ne_nil _ _)]
    dsimp only
    rw [hfold, if_pos hlast, if_pos hprev]
  · rw [List.getLast?_concat]
  · rw [headerTrace_of_readLine hread (List.cons_ne_nil _ _), hfold, if_pos hlast, if_pos hprev]
    rfl

/-- The headers do not end at an empty line that is not looked at. -/
theorem not_ends_of_not_heard {net : Net} {h : Headers} (hmalloc : ∀ i, malloc i = true)
    (hreceived : net.received = crlf ++ bs) (hprev : prev.all (·.crlfEnded) = false)
    (hok : headerLoop malloc before prev total_size cl net = .ok h)
    (hbuffers : h.buffers.getLast? = some (.ofRead crlf)) : h.rest.received ≠ bs := by
  have hcut : cut (SOCKET_BUFFER_SIZE - 1) net.received = (crlf, bs) := by
    rw [hreceived]
    rfl
  obtain ⟨net', hread, hbs⟩ := readLine_of_cut hcut (.inl rfl)
  have hfold : foldPrev prev crlf = prev := rfl
  rw [headerLoop_piece hmalloc hread (List.cons_ne_nil _ _) (by rw [hfold, hprev]; rfl)] at hok
  rcases headerLoop_takes hok with hlast | hshort
  · rw [hlast] at hbuffers
    cases hbuffers
  · rintro rfl
    rw [hbs] at hshort
    exact Nat.lt_irrefl _ hshort

variable (b : HeaderBlock)

theorem not_ends (hheard : endHeard true b.texts = false) : ¬ b.Ends := by
  have hall : ∀ i : Nat, (fun _ ↦ true) i = true := fun _ ↦ rfl
  obtain ⟨trace, before', prev', total', cl', net', hmore, hpasses, hend, -⟩ :=
    passes_texts hall b.texts_header b.received [] none 0 (-3)
  intro hends
  rcases hends (fun _ ↦ true) with herror | ⟨h, hok, hrest, hbuffers, -⟩
  · exact headerLoop_ne_memory hall herror
  · rw [getHeaders, hpasses.loop] at hok
    exact not_ends_of_not_heard hall hmore (hend.trans hheard) hok hbuffers hrest

end HeaderBlock

/-- A header line whose text and CR fill a buffer. -/
def fullLine : List Char := List.replicate 4998 'a'

theorem fullLine_header : IsHeaderText fullLine where
  ne_nil := List.cons_ne_nil _ _
  line := by
    rintro k ⟨hcr, -⟩
    have hmem := List.mem_of_getElem? hcr
    rw [fullLine, List.mem_replicate] at hmem
    exact absurd hmem.2 (by decide)

/-- The block of this line. -/
def fullBlock : HeaderBlock where
  texts := [fullLine]
  body := []
  net := [.segment (fullLine ++ crlf ++ crlf)]
  texts_header := List.forall_mem_singleton.mpr fullLine_header
  received := by
    simp [Net.received]

end Upnp.Http
