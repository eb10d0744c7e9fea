import CodeReview.Proofs.Grammar.Places
import CodeReview.Proofs.Syntax.Polling
/-!
# The stack of open nodes

The stack machine makes the canonical tree of the recursion (`normalize_none`).  It makes the nodes in post-order, and a
time budget ends it at the first multiple of 512 nodes at which the clock shows the budget spent (`normalize_of_first`).

`recordFrom` is the machine with the list of the nodes that it has made in the place of their number
(`recordFrom_fst`); what one open node with children to come adds to that list is the post-order of the children's
canonical trees (`recordFrom_todo`).
-/
namespace CodeReview.Grammar

open Syntax (Deadline)
open Syntax.Node (postorder postorders)

/-- `normalizeFrom` with the nodes that have been made. -/
def recordFrom (t : Table) (s : Source) (top : Frame) (below : List Frame) (made : List Syntax.Node)
    (deadline : Option Deadline) : (Except Failure Syntax.Node × Option Deadline) × List Syntax.Node :=
  match _h : top.todo with
  | c :: rest => recordFrom t s (.opened c) ({ top with todo := rest } :: below) made deadline
  | [] =>
    let node := top.build t s
    match Deadline.poll (made.length + 1) deadline with
    | (some failure, deadline) => ((.error failure, deadline), made ++ [node])
    | (none, deadline) =>
      match below with
      | [] => ((.ok node, deadline), made ++ [node])
      | f :: fs => recordFrom t s { f with done := node :: f.done } fs (made ++ [node]) deadline
termination_by remaining (top :: below)
decreasing_by
  · have := sizes_kept_lt c
    simp only [remaining, Frame.opened, _h, Concrete.Node.sizes]
    omega
  · simp only [remaining, _h, Concrete.Node.sizes]
    omega

theorem normalizeFrom_cons (t : Table) (s : Source) (n c : Concrete.Node) (rest : List Concrete.Node)
    (done : List Syntax.Node) (below : List Frame) (built : Nat) (dl : Option Deadline) :
    normalizeFrom t s ⟨n, c :: rest, done⟩ below built dl =
      normalizeFrom t s (.opened c) (⟨n, rest, done⟩ :: below) built dl := by
  rw [normalizeFrom]

theorem normalizeFrom_nil (t : Table) (s : Source) (n : Concrete.Node) (done : List Syntax.Node) (below : List Frame)
    (built : Nat) (dl : Option Deadline) :
    normalizeFrom t s ⟨n, [], done⟩ below built dl =
      match Deadline.poll (built + 1) dl, below with
      | (some failure, dl), _ => (.error failure, dl)
      | (none, dl), [] => (.ok (Frame.build t s ⟨n, [], done⟩), dl)
      | (none, dl), f :: fs =>
        normalizeFrom t s { f with done := Frame.build t s ⟨n, [], done⟩ :: f.done } fs (built + 1) dl := by
  rw [normalizeFrom]
  rcases Deadline.poll (built + 1) dl with ⟨_ | e, dl'⟩
  · cases below <;> rfl
  · rfl

/-- **The machine that records what it makes is the machine.** -/
theorem recordFrom_fst (t : Table) (s : Source) (top : Frame) (below : List Frame) (made : List Syntax.Node)
    (dl : Option Deadline) :
    (recordFrom t s top below made dl).1 = normalizeFrom t s top below made.length dl := by
  fun_induction recordFrom t s top below made dl with
  | case1 top below made dl c rest h ih =>
    obtain ⟨n, todo, done⟩ := top
    cases h
    rw [ih, normalizeFrom_cons]
  | case2 top below made dl h node failure dl' hp =>
    obtain ⟨n, todo, done⟩ := top
    cases h
    rw [normalizeFrom_nil, hp]
  | case3 top made dl h node dl' hp =>
    obtain ⟨n, todo, done⟩ := top
    cases h
    rw [normalizeFrom_nil, hp]
  | case4 top made dl h node dl' hp f fs ih =>
    obtain ⟨n, todo, done⟩ := top
    cases h
    rw [ih, List.length_append, List.length_singleton, normalizeFrom_nil, hp]

theorem recordFrom_cons (t : Table) (s : Source) (n c : Concrete.Node) (rest : List Concrete.Node)
    (done : List Syntax.Node) (below : List Frame) (made : List Syntax.Node) (dl : Option Deadline) :
    recordFrom t s ⟨n, c :: rest, done⟩ below made dl = recordFrom t s (.opened c) (⟨n, rest, done⟩ :: below) made dl := by
  rw [recordFrom]

/-- Goes on where polls have not failed, with what has been made. -/
def carryOn (r : (Option Failure × Option Deadline) × List Syntax.Node)
    (next : Option Deadline → List Syntax.Node → (Except Failure Syntax.Node × Option Deadline) × List Syntax.Node) :
    (Except Failure Syntax.Node × Option Deadline) × List Syntax.Node :=
  match r with
  | ((some e, dl), made) => ((.error e, dl), made)
  | ((none, dl), made) => next dl made

theorem carryOn_append (xs ys made : List Syntax.Node) (dl : Option Deadline)
    (next : Option Deadline → List Syntax.Node → (Except Failure Syntax.Node × Option Deadline) × List Syntax.Node) :
    carryOn (Deadline.pollAll made (xs ++ ys) dl) next =
      carryOn (Deadline.pollAll made xs dl) (fun dl made => carryOn (Deadline.pollAll made ys dl) next) := by
  rw [Deadline.pollAll_append]
  rcases Deadline.pollAll made xs dl with ⟨⟨_ | e, dl'⟩, made'⟩ <;> rfl

/-- What follows when the canonical node on top of a stack has been made. -/
def resume (t : Table) (s : Source) (node : Syntax.Node) (below : List Frame) (dl : Option Deadline)
    (made : List Syntax.Node) : (Except Failure Syntax.Node × Option Deadline) × List Syntax.Node :=
  match below with
  | [] => ((.ok node, dl), made)
  | f :: fs => recordFrom t s { f with done := node :: f.done } fs made dl

theorem recordFrom_nil (t : Table) (s : Source) (n : Concrete.Node) (done : List Syntax.Node) (below : List Frame)
    (made : List Syntax.Node) (dl : Option Deadline) :
    recordFrom t s ⟨n, [], done⟩ below made dl =
      carryOn (Deadline.pollAll made [build t s n (kept n) done.reverse] dl)
        (resume t s (build t s n (kept n) done.reverse) below) := by
  rw [recordFrom, Deadline.pollAll]
  show (match Deadline.poll (made.length + 1) dl with
    | (some failure, deadline) => _
    | (none, deadline) => _) = _
  rcases Deadline.poll (made.length + 1) dl with ⟨_ | e, dl'⟩
  · cases below <;> rfl
  · rfl

-- The lemmas call each other as the machine goes down to a child and back up to the frame below.  An opened node counts
-- twice its size, one less than a list of children to come that it heads.
mutual

/-- **An opened node makes its canonical tree**, in post-order, and the frame below it takes the tree. -/
theorem recordFrom_opened (t : Table) (s : Source) (c : Concrete.Node) (below : List Frame) (made : List Syntax.Node)
    (dl : Option Deadline) :
    recordFrom t s (.opened c) below made dl =
      carryOn (Deadline.pollAll made (postorder (normal t s c)) dl) (resume t s (normal t s c) below) := by
  -- the kept children come first and the node itself last, as in its post-order
  have hpost : postorder (normal t s c) = postorders ((kept c).map (normal t s)) ++ [normal t s c] := by
    conv => lhs; rw [normal_eq]
    rw [build, postorder]
    rw [← build, ← normal_eq]
  rw [Frame.opened, recordFrom_todo t s (kept c) c [] below made dl, hpost, carryOn_append]
  congr 1
  funext dl' made'
  rw [recordFrom_nil, List.append_nil, List.reverse_reverse, ← normal_eq]
termination_by 2 * c.size
decreasing_by
  have := sizes_kept_lt c
  omega

/-- **The children to come of a frame make their canonical trees**, one after the other. -/
theorem recordFrom_todo (t : Table) (s : Source) (cs : List Concrete.Node) (n : Concrete.Node)
    (done : List Syntax.Node) (below : List Frame) (made : List Syntax.Node) (dl : Option Deadline) :
    recordFrom t s ⟨n, cs, done⟩ below made dl =
      carryOn (Deadline.pollAll made (postorders (cs.map (normal t s))) dl)
        (fun dl made => recordFrom t s ⟨n, [], (cs.map (normal t s)).reverse ++ done⟩ below made dl) := by
  match cs with
  | [] => rfl
  | c :: cs =>
    rw [recordFrom_cons, recordFrom_opened t s c, List.map_cons, postorders, carryOn_append]
    congr 1
    funext dl' made'
    rw [resume, recordFrom_todo t s cs n _ below made' dl', List.reverse_cons, List.append_assoc]
    rfl
termination_by 2 * Concrete.Node.sizes cs + 1
decreasing_by
  · simp only [Concrete.Node.sizes]
    omega
  · have : 0 < c.size := by cases c; simp [Concrete.Node.size]
    simp only [Concrete.Node.sizes]
    omega

end

theorem recordFrom_root (t : Table) (s : Source) (root : Concrete.Node) (dl : Option Deadline) :
    recordFrom t s (.opened root) [] [] dl =
      carryOn (Deadline.pollAll [] (postorder (normal t s root)) dl) (resume t s (normal t s root) []) :=
  recordFrom_opened t s root [] [] dl

theorem normalize_eq_fst (t : Table) (s : Source) (root : Concrete.Node) (dl : Option Deadline) :
    normalize t s root dl = (recordFrom t s (.opened root) [] [] dl).1 := by
  rw [recordFrom_fst, List.length_nil, normalize]

theorem normalize_none (t : Table) (s : Source) (root : Concrete.Node) :
    normalize t s root none = (.ok (normal t s root), none) := by
  rw [normalize_eq_fst, recordFrom_root, Deadline.pollAll_none]
  rfl

theorem normalize_of_unspent (t : Table) (s : Source) (root : Concrete.Node) (d : Deadline)
    (h : ∀ j < (normal t s root).size / 512, d.spentAt j = false) :
    recordFrom t s (.opened root) [] [] (some d) =
      ((.ok (normal t s root), some (d.after ((normal t s root).size / 512))), postorder (normal t s root)) := by
  rw [← Syntax.Node.length_postorder] at h ⊢
  rw [recordFrom_root, Deadline.pollAll_of_unspent _ d h]
  rfl

theorem normalize_of_first (t : Table) (s : Source) (root : Concrete.Node) (d : Deadline) (k : Nat)
    (hk : k < (normal t s root).size / 512) (hs : d.spentAt k = true) (hu : ∀ j < k, d.spentAt j = false) :
    recordFrom t s (.opened root) [] [] (some d) =
      ((.error (Syntax.spentFailure d.budget), some (d.after (k + 1))),
        (postorder (normal t s root)).take (512 * (k + 1))) := by
  rw [← Syntax.Node.length_postorder] at hk
  rw [recordFrom_root, Deadline.pollAll_of_first _ [] k d (by simpa using hk) hs hu, List.nil_append,
    List.length_nil, Nat.zero_div, Nat.zero_add]
  rfl

/-- The machine looks at its time budget once for every 512 nodes that it makes. -/
theorem normalize_polled (t : Table) (s : Source) (root : Concrete.Node) :
    Syntax.Polled (normalize t s root) ((normal t s root).size / 512) where
  free := by rw [normalize_none]
  unspent d _ hu := by rw [normalize_eq_fst, normalize_of_unspent t s root d hu, normalize_none]
  spent d k ht hk hs hu := by
    rw [normalize_eq_fst, normalize_of_first t s root d k hk hs hu, Syntax.spentFailure_eq, if_pos ht]

end CodeReview.Grammar
