import Mathlib.Data.Prod.Lex
import Multiversion.Proofs.Source.Rewriting

/-! Passes over what came out of the pass before.

An eval line can hide a directive, or another eval line, so a second pass with the same
environment can do more than the first one. It cannot go on forever. Directives stay as
they are (`scan_keeps_directives`), so the lines that are none can only get fewer; and as
long as they do not, the stack in front of every line is the same in the next pass, and each
line loses what it has to lose: an eval line of an active region gets shorter, and a line of
an inactive one is commented out once. `rank` counts both, and every pass that changes
something lowers it (`rank_lt_of_scan`).

`passes_settle`: passes come to an error, or to a text that no later pass changes. -/
namespace Multiversion.Source
open Block (Stack Context)

variable {k : Keywords} {context : Context} {s t : Stack} {text : Text} {lines out : List Text}

variable (k context) in
/-- So many passes, each over what came out of the one before. -/
def passes : Nat → List Text → Except Block.Error (List Text)
  | 0, lines => .ok lines
  | n + 1, lines => pass k context lines >>= passes n

theorem passes_add (m n : Nat) (lines : List Text) :
    passes k context (m + n) lines = passes k context m lines >>= passes k context n := by
  induction m generalizing lines with
  | zero => rw [Nat.zero_add, passes, ok_bind]
  | succ m ih =>
    rw [Nat.succ_add, passes, passes, bind_assoc]
    exact congrArg _ (funext ih)

/-- What a pass does not change no later pass changes. -/
theorem passes_of_pass (h : pass k context out = .ok out) (n : Nat) :
    passes k context n out = .ok out := by
  induction n with
  | zero => rfl
  | succ n ih => rw [passes, h, ok_bind, ih]

/-! ### Directives stay -/

/-- Lines that direct come out as they are. -/
theorem scan_keeps_directives (h : scan k context s (asIs lines) = .ok (t, out)) {i : Nat}
    (hi : lines[i]? = some text) (hd : (kind k text).structural = true) :
    out[i]? = some text := by
  induction lines generalizing s out i with
  | nil => cases hi
  | cons line rest ih =>
    rw [asIs_cons] at h
    obtain ⟨u, first, more, ha, hrest, rfl⟩ := scan_cons_ok.1 h
    cases i with
    | zero =>
      obtain rfl := Option.some.inj hi
      exact congrArg some (step_of_advance k context hd ha).1
    | succ i => exact ih hrest hi

theorem passes_keep_directives {n : Nat} (h : passes k context n lines = .ok out) {i : Nat}
    (hi : lines[i]? = some text) (hd : (kind k text).structural = true) :
    out[i]? = some text := by
  induction n generalizing lines with
  | zero =>
    cases h
    exact hi
  | succ n ih =>
    obtain ⟨next, hpass, hrest⟩ := bind_eq_ok.1 h
    obtain ⟨t, hscan, _⟩ := result_eq_ok.1 hpass
    exact ih hrest (scan_keeps_directives hscan hi hd)

/-! ### What is left to do -/

variable (k) in
/-- How much a line has to lose behind a stack: its characters in an active region, and
being as it is in an inactive one, if it is to be commented out there. -/
def excess (s : Stack) (text : Text) : Nat :=
  if s.active then text.length else if cover k s.indent text = text then 0 else 1

/-- A line that is no directive stays, or it has less to lose. -/
theorem excess_rewrite (hk : k.EvalApart) (s : Stack) (text : Text) :
    rewrite k s (.same text) = text ∨
      excess k s (rewrite k s (.same text)) < excess k s text := by
  cases ha : s.active with
  | true =>
    rw [rewrite_of_active ha]
    by_cases he : kind k text = .eval
    · refine .inr ?_
      rw [reveal_of_kind_eval he, excess, excess, if_pos ha, if_pos ha]
      exact length_enable_lt hk.starts he
    · exact .inl (reveal_of_kind_ne he)
  | false =>
    have hinactive : ¬ s.active = true := by simp [ha]
    rw [rewrite_of_inactive ha]
    by_cases hc : cover k s.indent text = text
    · exact .inl hc
    · refine .inr ?_
      rw [excess, excess, if_neg hinactive, if_neg hinactive, if_neg hc,
        if_pos (cover_cover hk s.indent text)]
      exact Nat.one_pos

variable (k context) in
/-- How much the lines that are no directives have to lose, each behind the stack that the
lines in front of it lead to. -/
def excessFrom : Stack → List Text → Nat
  | _, [] => 0
  | s, text :: rest =>
    if (kind k text).structural then
      match advance k context s (.same text) with
      | .ok (t, _) => excessFrom t rest
      | .error _ => 0
    else excess k s text + excessFrom (next s) rest

theorem excessFrom_directive (hd : (kind k text).structural = true) {first : Text}
    (ha : advance k context s (.same text) = .ok (t, first)) (rest : List Text) :
    excessFrom k context s (text :: rest) = excessFrom k context t rest := by
  rw [excessFrom, if_pos hd, ha]

theorem excessFrom_line (hn : (kind k text).structural = false) (rest : List Text) :
    excessFrom k context s (text :: rest) =
      excess k s text + excessFrom k context (next s) rest := by
  rw [excessFrom, if_neg (by simp [hn])]

variable (k) in
/-- How many lines are no directives. -/
def undirected (lines : List Text) : Nat :=
  lines.countP fun text => !(kind k text).structural

theorem undirected_cons (text : Text) (rest : List Text) :
    undirected k (text :: rest) =
      undirected k rest + if (kind k text).structural then 0 else 1 := by
  cases h : (kind k text).structural <;> simp [undirected, h]

variable (k context) in
/-- What passes have left to do: first there are lines that may become directives, then the
lines themselves may lose something. -/
def rank (s : Stack) (lines : List Text) : Nat ×ₗ Nat :=
  toLex (undirected k lines, excessFrom k context s lines)

theorem rank_lt_iff {a b : List Text} :
    rank k context s a < rank k context s b ↔
      undirected k a < undirected k b ∨
        undirected k a = undirected k b ∧
          excessFrom k context s a < excessFrom k context s b :=
  Prod.Lex.toLex_lt_toLex

/-- A line that comes out, in front of lines that come out, counts for less if anything has
changed. -/
theorem rank_line_lt (hk : k.EvalApart) (hn : (kind k text).structural = false)
    {rest more : List Text}
    (ih : more = rest ∨ rank k context (next s) more < rank k context (next s) rest) :
    rewrite k s (.same text) :: more = text :: rest ∨
      rank k context s (rewrite k s (.same text) :: more) < rank k context s (text :: rest) := by
  have hcount : undirected k more ≤ undirected k rest := by
    rcases ih with rfl | hlt
    · exact Nat.le_refl _
    · rcases rank_lt_iff.1 hlt with h | ⟨h, -⟩ <;> omega
  rw [rank_lt_iff, undirected_cons, undirected_cons, excessFrom_line hn, hn]
  cases hd : (kind k (rewrite k s (.same text))).structural with
  | true =>
    -- A directive has come out.
    refine .inr (.inl ?_)
    simp only [if_true, Bool.false_eq_true, if_false]
    omega
  | false =>
    rw [excessFrom_line hd]
    simp only [Bool.false_eq_true, if_false]
    rcases excess_rewrite hk s text with hsame | hless
    · rw [hsame]
      rcases ih with rfl | hlt
      · exact .inl rfl
      · rcases rank_lt_iff.1 hlt with h | ⟨h, h'⟩
        · exact .inr (.inl (by omega))
        · exact .inr (.inr ⟨by omega, by omega⟩)
    · refine .inr ?_
      rcases ih with rfl | hlt
      · exact .inr ⟨rfl, by omega⟩
      · rcases rank_lt_iff.1 hlt with h | ⟨h, h'⟩
        · exact .inl (by omega)
        · exact .inr ⟨by omega, by omega⟩

/-- Reading lines changes nothing, or it leaves less to do. -/
theorem rank_lt_of_scan (hk : k.EvalApart)
    (h : scan k context s (asIs lines) = .ok (t, out)) :
    out = lines ∨ rank k context s out < rank k context s lines := by
  induction lines generalizing s out with
  | nil =>
    cases h
    exact .inl rfl
  | cons text rest ih =>
    rw [asIs_cons] at h
    obtain ⟨u, first, more, ha, hrest, rfl⟩ := scan_cons_ok.1 h
    have hmore := ih hrest
    cases hd : (kind k text).structural with
    | true =>
      obtain rfl : first = text := (step_of_advance k context hd ha).1
      refine hmore.imp (congrArg (first :: ·)) fun hlt => ?_
      rw [rank_lt_iff] at hlt ⊢
      rw [undirected_cons, undirected_cons, excessFrom_directive hd ha, excessFrom_directive hd ha]
      exact hlt.imp (Nat.add_lt_add_right · _) (And.imp_left (congrArg (· + _)))
    | false =>
      rw [advance_same s hd] at ha
      cases ha
      exact rank_line_lt hk hd hmore

/-! ### The end of the passes -/

/-- Passes that have no error come to a text that a pass does not change. The induction is
on what is left to do. -/
theorem exists_settled (hk : k.EvalApart) (context : Context) (lines : List Text) :
    ∃ n, (∃ e, passes k context n lines = .error e) ∨
      ∃ out, passes k context n lines = .ok out ∧ pass k context out = .ok out := by
  induction lines using WellFounded.induction
    (InvImage.wf (rank k context .start) wellFounded_lt) with
  | _ lines ih =>
    cases hp : pass k context lines with
    | error e => exact ⟨1, .inl ⟨e, by rw [passes, hp, error_bind]⟩⟩
    | ok next =>
      obtain ⟨t, hscan, -⟩ := result_eq_ok.1 hp
      rcases rank_lt_of_scan hk hscan with rfl | hlt
      · exact ⟨0, .inr ⟨next, rfl, hp⟩⟩
      · obtain ⟨n, h⟩ := ih next hlt
        refine ⟨n + 1, ?_⟩
        rw [passes, hp, ok_bind]
        exact h

/-- **Passes settle.** Passes with one environment, each over what came out of the one
before, come to an error or to a text that no later pass changes. A line that is a directive
in front of any of them is there after all later ones. -/
theorem passes_settle (hk : k.EvalApart) (context : Context) (lines : List Text) :
    (∃ n, (∃ e, passes k context n lines = .error e) ∨
        ∃ out, pass k context out = .ok out ∧
          ∀ m, n ≤ m → passes k context m lines = .ok out) ∧
      ∀ (m n : Nat) (between out : List Text), passes k context m lines = .ok between →
        passes k context (m + n) lines = .ok out →
        ∀ (i : Nat) (text : Text), between[i]? = some text → (kind k text).structural = true →
          out[i]? = some text := by
  refine ⟨?_, fun m n between out hm hmn i text hi hd => ?_⟩
  · obtain ⟨n, h⟩ := exists_settled hk context lines
    refine ⟨n, h.imp_right fun ⟨out, hout, hfixed⟩ => ⟨out, hfixed, fun m hm => ?_⟩⟩
    obtain ⟨more, rfl⟩ := Nat.exists_eq_add_of_le hm
    rw [passes_add, hout, ok_bind, passes_of_pass hfixed]
  · rw [passes_add, hm, ok_bind] at hmn
    exact passes_keep_directives hmn hi hd

/-- Two eval lines that hide a chain, around a line and an eval line behind an eval token. -/
def concealed : List Text :=
  ["//$$ //#ifdef A", "x", "//$$ //$$ y", "//$$ //#endif"].map String.toText

/-- Both keyword sets have an eval token of its own, so passes over the lines settle, and the
directive that the first pass brings out is there however many passes follow. -/
theorem passes_settle_concealed :
    Keywords.standard.EvalApart ∧ Keywords.cfg.EvalApart ∧
      (∃ n, (∃ e, passes .standard ⟨.empty, "a.java".toText⟩ n concealed = .error e) ∨
        ∃ out, pass .standard ⟨.empty, "a.java".toText⟩ out = .ok out ∧
          ∀ m, n ≤ m → passes .standard ⟨.empty, "a.java".toText⟩ m concealed = .ok out) ∧
      passes .standard ⟨.empty, "a.java".toText⟩ 1 concealed =
        .ok (["//#ifdef A", "x", "//$$ y", "//#endif"].map String.toText) ∧
      ∀ n out, passes .standard ⟨.empty, "a.java".toText⟩ (1 + n) concealed = .ok out →
        out[0]? = some "//#ifdef A".toText := by
  obtain ⟨hsettled, hkept⟩ :=
    passes_settle Keywords.standard_evalApart ⟨.empty, "a.java".toText⟩ concealed
  have hfirst : passes .standard ⟨.empty, "a.java".toText⟩ 1 concealed =
      .ok (["//#ifdef A", "x", "//$$ y", "//#endif"].map String.toText) := rfl
  exact ⟨Keywords.standard_evalApart, Keywords.cfg_evalApart, hsettled, hfirst,
    fun n out h => hkept 1 n _ out hfirst h 0 _ rfl (by decide)⟩

/-- The second pass comments the line of the chain out, and from then on nothing changes. -/
example : passes .standard ⟨.empty, "a.java".toText⟩ 2 concealed =
    .ok (["//#ifdef A", "//$$ x", "//$$ y", "//#endif"].map String.toText) := rfl

end Multiversion.Source
