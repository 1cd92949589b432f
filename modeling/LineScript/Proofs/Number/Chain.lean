import LineScript.Number.Chain
import Mathlib.Data.List.TakeWhile

/-!
# A chain is read in layers

The value of a chain by its layers: it is cut at every `^` and the pieces are folded from the left;
each piece is cut at `<<` and `>>` and folded from the left, its pieces at `+` and `-`, theirs at
`*`, `/` and `%`, and what is left are powers, which are folded from the right. The climb goes over
the chain once, in a loop within a recursion, and comes to the same value (`climb_eq`), for any
meaning of the operators.

* `reading_cons` is the step of the loop seen from the layers: the first operator takes for its
  right operand all that binds more tightly, and its result is an operand of what follows.
* `Walk` is the climb over positions, which has no run where a position is outside of the chain. It
  has one run on every chain (`exists_walk`, `Walk.unique`).
-/

namespace LineScript.Chain

variable {α : Type} (apply : Operator → α → α → α)

/-! ## Layers -/

/-- The value of powers, from the right. -/
def powers : α → List (Operator × α) → α
  | first, [] => first
  | first, (op, x) :: rest => apply op first (powers x rest)

/-- Cut a chain at the operators of some kinds. The result is the first piece, and the others each
with the operator before it. -/
def cut (kinds : List Operator) : α → List (Operator × α) →
    (α × List (Operator × α)) × List (Operator × α × List (Operator × α))
  | first, [] => ((first, []), [])
  | first, (op, x) :: rest =>
    let tail := cut kinds x rest
    if op ∈ kinds then ((first, []), (op, tail.1) :: tail.2)
    else ((first, (op, tail.1.1) :: tail.1.2), tail.2)

/-- Cut a chain at these operators, and fold the values of the pieces from the left. -/
def layer (kinds : List Operator) (value : α → List (Operator × α) → α) (first : α)
    (rest : List (Operator × α)) : α :=
  let pieces := cut kinds first rest
  pieces.2.foldl (fun left piece => apply piece.1 left (value piece.2.1 piece.2.2))
    (value pieces.1.1 pieces.1.2)

/-- The kinds of operators that group from the left, the loosest in front. -/
def levels : List (List Operator) :=
  [[.xor], [.shiftLeft, .shiftRight], [.add, .sub], [.mul, .div, .rem]]

/-- The value of a chain that is cut at these levels, one after the other. -/
def reading : List (List Operator) → α → List (Operator × α) → α
  | [] => powers apply
  | kinds :: tighter => layer apply kinds (reading tighter)

/-- The value of a chain by its layers. -/
def layered (first : α) (rest : List (Operator × α)) : α :=
  reading apply levels first rest

/-! ## Pieces -/

variable {apply} {kinds : List Operator} {value : α → List (Operator × α) → α}

/-- What follows a piece: nothing, or one of the operators at which the chain is cut. -/
def Follows (kinds : List Operator) (after : List (Operator × α)) : Prop :=
  ∀ link ∈ after.head?, link.1 ∈ kinds

/-- The other pieces do not depend on the first operand. -/
theorem cut_snd (first first' : α) (rest : List (Operator × α)) :
    (cut kinds first rest).2 = (cut kinds first' rest).2 := by
  cases rest with
  | nil => rfl
  | cons link rest =>
    simp only [cut]
    split <;> rfl

theorem cut_append {piece after : List (Operator × α)} (first : α)
    (free : ∀ link ∈ piece, link.1 ∉ kinds) (follows : Follows kinds after) :
    cut kinds first (piece ++ after) = ((first, piece), (cut kinds first after).2) := by
  induction piece generalizing first with
  | nil =>
    cases after with
    | nil => rfl
    | cons link rest =>
      have mem : link.1 ∈ kinds := follows link rfl
      simp [cut, mem]
  | cons link rest ih =>
    obtain ⟨here, later⟩ := List.forall_mem_cons.mp free
    have others : (cut kinds link.2 after).2 = (cut kinds first after).2 := cut_snd _ _ after
    simp [cut, here, ih link.2 later, others]

/-- A piece is replaced by its value. -/
theorem layer_of_follows (single : ∀ a, value a [] = a) (first : α) {after : List (Operator × α)}
    (follows : Follows kinds after) :
    layer apply kinds value first after = (cut kinds first after).2.foldl
      (fun left piece => apply piece.1 left (value piece.2.1 piece.2.2)) first := by
  have here : cut kinds first ([] ++ after) = _ := cut_append first (by simp) follows
  rw [List.nil_append] at here
  rw [layer, here, single]

/-- The first piece of a chain can be replaced by its value. -/
theorem layer_append (single : ∀ a, value a [] = a) {piece after : List (Operator × α)} (first : α)
    (free : ∀ link ∈ piece, link.1 ∉ kinds) (follows : Follows kinds after) :
    layer apply kinds value first (piece ++ after) =
      layer apply kinds value (value first piece) after := by
  rw [layer_of_follows single _ follows, cut_snd _ first, layer, cut_append first free follows]

/-- The first operator at which a chain is cut joins the two pieces beside it. -/
theorem layer_cons (single : ∀ a, value a [] = a) {op : Operator} (mem : op ∈ kinds) (left x : α)
    {piece after : List (Operator × α)} (free : ∀ link ∈ piece, link.1 ∉ kinds)
    (follows : Follows kinds after) :
    layer apply kinds value left ((op, x) :: (piece ++ after)) =
      layer apply kinds value (apply op left (value x piece)) after := by
  have cons : Follows kinds ((op, x) :: (piece ++ after)) := by
    rintro link ⟨⟩
    exact mem
  rw [layer_of_follows single _ cons, layer_of_follows single _ follows, cut,
    cut_append x free follows, if_pos mem, List.foldl_cons,
    cut_snd (apply op left (value x piece)) x]

theorem reading_nil (apply : Operator → α → α → α) (levels : List (List Operator)) (first : α) :
    reading apply levels first [] = first := by
  induction levels with
  | nil => rfl
  | cons kinds tighter ih => exact ih

/-! ## Operators that bind tightly -/

/-- The operator binds at least so tightly. -/
def binds (least : Nat) (link : Operator × α) : Bool :=
  least ≤ link.1.precedence

theorem binds_mono {least more : Nat} (le : least ≤ more) {link : Operator × α}
    (tight : binds more link = true) : binds least link = true := by
  simp only [binds, decide_eq_true_eq] at tight ⊢
  omega

/-- The levels of the operators that bind at least so tightly. -/
def tighter (least : Nat) : List (List Operator) :=
  levels.drop (least - 1)

theorem precedence_pos (op : Operator) : 1 ≤ op.precedence := by
  cases op <;> decide

/-- On the right of a power another power belongs to the operand. -/
theorem rightMinimum_eq (op : Operator) : op.rightMinimum = min (op.precedence + 1) 5 := by
  cases op <;> rfl

/-- Of the operators that bind so tightly, the loosest are those of one level. -/
theorem exists_tighter {least : Nat} (pos : 1 ≤ least) (lt : least < 5) :
    ∃ kinds, tighter least = kinds :: tighter (least + 1) ∧
      ∀ op : Operator, op ∈ kinds ↔ op.precedence = least := by
  obtain rfl | rfl | rfl | rfl : least = 1 ∨ least = 2 ∨ least = 3 ∨ least = 4 := by omega
  all_goals
    refine ⟨_, rfl, ?_⟩
    intro op
    cases op <;> decide

section

variable {p q : Operator × α → Bool}

theorem dropWhile_dropWhile (imp : ∀ a, p a = true → q a = true) (l : List (Operator × α)) :
    (l.dropWhile p).dropWhile q = l.dropWhile q := by
  induction l with
  | nil => rfl
  | cons a l ih => by_cases h : p a = true <;> simp [h, imp, ih]

theorem takeWhile_takeWhile (imp : ∀ a, p a = true → q a = true) (l : List (Operator × α)) :
    (l.takeWhile q).takeWhile p = l.takeWhile p := by
  rw [List.takeWhile_takeWhile]
  congr 1
  funext a
  by_cases h : p a = true <;> simp [h, imp]

theorem dropWhile_takeWhile (imp : ∀ a, p a = true → q a = true) (l : List (Operator × α)) :
    (l.takeWhile q).dropWhile p = (l.dropWhile p).takeWhile q := by
  induction l with
  | nil => rfl
  | cons a l ih =>
    by_cases h : p a = true
    · simp [h, imp, ih]
    · by_cases h' : q a = true <;> simp [h, h']

theorem takeWhile_append {piece after : List (Operator × α)}
    (stops : ∀ a ∈ after.head?, p a = false) :
    (piece ++ after).takeWhile p = piece.takeWhile p := by
  induction piece with
  | nil => cases after with
    | nil => rfl
    | cons a after => simp [stops a rfl]
  | cons a piece ih => by_cases h : p a = true <;> simp [h, ih]

theorem dropWhile_append {piece after : List (Operator × α)}
    (stops : ∀ a ∈ after.head?, p a = false) :
    (piece ++ after).dropWhile p = piece.dropWhile p ++ after := by
  induction piece with
  | nil => cases after with
    | nil => rfl
    | cons a after => simp [stops a rfl]
  | cons a piece ih => by_cases h : p a = true <;> simp [h, ih]

end

/-! ## The step of the loop -/

theorem reading_cons_pow (apply : Operator → α → α → α) {op : Operator} (tight : 5 ≤ op.precedence)
    (left x : α) {tail : List (Operator × α)} (all : ∀ link ∈ tail, binds 5 link = true) :
    reading apply (tighter 5) left ((op, x) :: tail) =
      reading apply (tighter 5)
        (apply op left (reading apply (tighter op.rightMinimum) x
          (tail.takeWhile (binds op.rightMinimum))))
        (tail.dropWhile (binds op.rightMinimum)) := by
  have five : op.rightMinimum = 5 := by
    rw [rightMinimum_eq]
    omega
  rw [five, List.takeWhile_eq_self_iff.mpr all, List.dropWhile_eq_nil_iff.mpr all, reading_nil]
  rfl

/-- A chain of operators that bind so tightly begins with a piece of tighter ones; what follows it
is an operator that is no tighter. -/
theorem exists_split {least : Nat} {tail : List (Operator × α)}
    (all : ∀ link ∈ tail, binds least link = true) :
    ∃ piece after, tail = piece ++ after ∧ (∀ link ∈ piece, binds (least + 1) link = true) ∧
      ∀ link ∈ after.head?, link.1.precedence = least := by
  refine ⟨_, _, List.takeWhile_append_dropWhile.symm, fun _ mem => List.mem_takeWhile_imp mem, ?_⟩
  intro link head
  have here : link ∈ tail := (List.dropWhile_suffix _).subset (List.mem_of_mem_head? head)
  have above : least ≤ link.1.precedence := of_decide_eq_true (all link here)
  have stops := List.head?_dropWhile_not (binds (least + 1)) tail
  rw [Option.mem_def.mp head] at stops
  simp only [binds, decide_eq_false_iff_not] at stops
  omega

/-- An operator takes for its right operand all that binds more tightly, and its result is an
operand of what follows. -/
theorem reading_cons (apply : Operator → α → α → α) {least : Nat} (le : least ≤ 5) {op : Operator}
    (tight : least ≤ op.precedence) (left x : α) {tail : List (Operator × α)}
    (all : ∀ link ∈ tail, binds least link = true) :
    reading apply (tighter least) left ((op, x) :: tail) =
      reading apply (tighter least)
        (apply op left (reading apply (tighter op.rightMinimum) x
          (tail.takeWhile (binds op.rightMinimum))))
        (tail.dropWhile (binds op.rightMinimum)) := by
  -- From the tightest level to the loosest one.
  induction le using Nat.decreasingInduction generalizing left x tail with
  | self => exact reading_cons_pow apply tight left x all
  | of_succ least lt ih =>
    obtain rfl | pos := Nat.eq_zero_or_pos least
    · -- No operator is looser than those of the first level.
      exact ih (precedence_pos op) left x fun link _ => decide_eq_true (precedence_pos link.1)
    obtain ⟨kinds, eq, mem_kinds⟩ := exists_tighter pos lt
    obtain ⟨piece, after, rfl, bound, loose⟩ := exists_split all
    have single := reading_nil apply (tighter (least + 1))
    have free : ∀ {links : List (Operator × α)}, (∀ link ∈ links, binds (least + 1) link = true) →
        ∀ link ∈ links, link.1 ∉ kinds := by
      intro links bound link mem
      have above : least + 1 ≤ link.1.precedence := of_decide_eq_true (bound link mem)
      rw [mem_kinds]
      omega
    have follows : Follows kinds after := fun link head => (mem_kinds _).mpr (loose link head)
    have right := rightMinimum_eq op
    have stops : ∀ link ∈ after.head?, binds op.rightMinimum link = false := by
      intro link head
      have here := loose link head
      simp only [binds, decide_eq_false_iff_not]
      omega
    rw [eq, takeWhile_append stops, dropWhile_append stops]
    simp only [reading]
    by_cases here : op.precedence = least
    · have next : op.rightMinimum = least + 1 := by omega
      rw [next, List.takeWhile_eq_self_iff.mpr bound, List.dropWhile_eq_nil_iff.mpr bound]
      exact layer_cons single ((mem_kinds op).mpr here) left x (free bound) follows
    · have above : least + 1 ≤ op.precedence := by omega
      have inner := ih above left x bound
      have all' : ∀ link ∈ (op, x) :: piece, binds (least + 1) link = true :=
        List.forall_mem_cons.mpr ⟨decide_eq_true above, bound⟩
      have rest : ∀ link ∈ piece.dropWhile (binds op.rightMinimum), binds (least + 1) link = true :=
        fun link mem => bound link ((List.dropWhile_suffix _).subset mem)
      rw [← List.cons_append, layer_append single left (free all') follows, inner,
        layer_append single _ (free rest) follows]

/-- One round of the loop: the right operand is climbed, and the climb goes on with the result. -/
theorem climb_cons (apply : Operator → α → α → α) {least : Nat} {op : Operator}
    (tight : least ≤ op.precedence) (left x : α) (tail : List (Operator × α)) :
    let right := climb apply op.rightMinimum x tail
    let all := climb apply least (apply op left right.1) right.2.val
    (climb apply least left ((op, x) :: tail)).1 = all.1 ∧
      (climb apply least left ((op, x) :: tail)).2.val = all.2.val := by
  intro right all
  rw [climb, if_neg (Nat.not_lt.mpr tight)]
  exact ⟨rfl, rfl⟩

/-- Induction along the climb. -/
@[elab_as_elim]
theorem climb_rec (apply : Operator → α → α → α) {motive : Nat → α → List (Operator × α) → Prop}
    (nil : ∀ least left, motive least left [])
    (loose : ∀ least left op x tail, op.precedence < least → motive least left ((op, x) :: tail))
    (tight : ∀ least left op x tail, least ≤ op.precedence → motive op.rightMinimum x tail →
      motive least (apply op left (climb apply op.rightMinimum x tail).1)
        (climb apply op.rightMinimum x tail).2.val → motive least left ((op, x) :: tail))
    (least : Nat) (left : α) (rest : List (Operator × α)) : motive least left rest := by
  induction least, left, rest using climb.induct apply with
  | case1 least left => exact nil least left
  | case2 least left op x tail lt => exact loose least left op x tail lt
  | case3 least left op x tail not_lt right after _ eq _ _ _ _ ih ih' =>
    refine tight least left op x tail (Nat.le_of_not_lt not_lt) ih ?_
    rw [eq]
    exact ih'

/-- The climb takes all that binds so tightly, and comes to its value by layers. -/
theorem climb_eq (apply : Operator → α → α → α) {least : Nat} (le : least ≤ 5) (left : α)
    (rest : List (Operator × α)) :
    (climb apply least left rest).1 =
        reading apply (tighter least) left (rest.takeWhile (binds least)) ∧
      (climb apply least left rest).2.val = rest.dropWhile (binds least) := by
  induction least, left, rest using climb_rec apply with
  | nil least left => simp [climb, reading_nil]
  | loose least left op x tail lt =>
    have stops : binds least (op, x) = false := by simpa [binds] using lt
    simp [climb, lt, stops, reading_nil]
  | tight least left op x tail above ih ih' =>
    have right := rightMinimum_eq op
    have here : binds least (op, x) = true := decide_eq_true above
    have imp : ∀ link : Operator × α, binds op.rightMinimum link = true → binds least link = true :=
      fun _ => binds_mono (by omega)
    have all : ∀ link ∈ tail.takeWhile (binds least), binds least link = true :=
      fun _ mem => List.mem_takeWhile_imp mem
    have step := reading_cons apply le above left x all
    have round := climb_cons apply above left x tail
    obtain ⟨value, after⟩ := ih (by omega)
    obtain ⟨value', after'⟩ := ih' le
    rw [takeWhile_takeWhile imp, dropWhile_takeWhile imp, ← value, ← after] at step
    rw [round.1, round.2, List.takeWhile_cons_of_pos here, List.dropWhile_cons_of_pos here, step,
      value', after', after, dropWhile_dropWhile imp]
    exact ⟨rfl, rfl⟩

/-- The climb from the loosest operators takes the whole chain. -/
theorem climb_zero (apply : Operator → α → α → α) (first : α) (rest : List (Operator × α)) :
    (climb apply 0 first rest).1 = layered apply first rest ∧
      (climb apply 0 first rest).2.val = [] := by
  have all : ∀ link ∈ rest, binds 0 link = true := fun link _ => decide_eq_true (Nat.zero_le _)
  have climbed := climb_eq apply (Nat.zero_le 5) first rest
  rwa [List.takeWhile_eq_self_iff.mpr all, List.dropWhile_eq_nil_iff.mpr all] at climbed

/-! ## The climb over positions -/

variable {operands : List α} {operators : List Operator}

/-- The climb over positions: `Walk apply operands operators least left position value stop reads`
starts with `left`, the value that ends at the operand at `position`, and stops at the operand at
`stop` with the value; `reads` are the positions of the operands that it took meanwhile, in order.
The operator after an operand has the same position. -/
inductive Walk (apply : Operator → α → α → α) (operands : List α) (operators : List Operator) :
    Nat → α → Nat → α → Nat → List Nat → Prop
  | finish {least left position} (past : operators[position]? = none) :
    Walk apply operands operators least left position left position []
  | loose {least left position op} (next : operators[position]? = some op)
    (lt : op.precedence < least) :
    Walk apply operands operators least left position left position []
  | tight {least left position op x right after value stop reads reads'}
    (next : operators[position]? = some op) (le : least ≤ op.precedence)
    (operand : operands[position + 1]? = some x)
    (inner : Walk apply operands operators op.rightMinimum x (position + 1) right after reads)
    (outer : Walk apply operands operators least (apply op left right) after value stop reads') :
    Walk apply operands operators least left position value stop
      ((position + 1) :: (reads ++ reads'))

/-- A climb over positions has one result. -/
theorem Walk.unique {least position stop stop' : Nat} {left value value' : α}
    {reads reads' : List Nat}
    (one : Walk apply operands operators least left position value stop reads)
    (other : Walk apply operands operators least left position value' stop' reads') :
    value = value' ∧ stop = stop' ∧ reads = reads' := by
  induction one generalizing value' stop' reads' with
  | finish past =>
    cases other with
    | finish => exact ⟨rfl, rfl, rfl⟩
    | loose next => simp [past] at next
    | tight next => simp [past] at next
  | loose next lt =>
    cases other with
    | finish => exact ⟨rfl, rfl, rfl⟩
    | loose => exact ⟨rfl, rfl, rfl⟩
    | tight next' le =>
      obtain rfl := Option.some.inj (next.symm.trans next')
      omega
  | tight next le operand _ _ ih ih' =>
    cases other with
    | finish past => simp [next] at past
    | loose next' lt =>
      obtain rfl := Option.some.inj (next.symm.trans next')
      omega
    | tight next' _ operand' inner' outer' =>
      obtain rfl := Option.some.inj (next.symm.trans next')
      obtain rfl := Option.some.inj (operand.symm.trans operand')
      obtain ⟨rfl, rfl, rfl⟩ := ih inner'
      obtain ⟨rfl, rfl, rfl⟩ := ih' outer'
      exact ⟨rfl, rfl, rfl⟩

/-- What stands after the operand at a position. -/
def links (operands : List α) (operators : List Operator) (position : Nat) :
    List (Operator × α) :=
  (operators.drop position).zip (operands.drop (position + 1))

theorem links_nil {position : Nat} (shape : operands.length = operators.length + 1)
    (past : links operands operators position = []) : operators[position]? = none := by
  have length := congrArg List.length past
  simp only [links, List.length_zip, List.length_drop, List.length_nil] at length
  exact List.getElem?_eq_none (by omega)

theorem links_cons {position : Nat} {op : Operator} {x : α} {tail : List (Operator × α)}
    (more : links operands operators position = (op, x) :: tail) :
    operators[position]? = some op ∧ operands[position + 1]? = some x ∧
      links operands operators (position + 1) = tail := by
  obtain ⟨kinds, others, drop, drop', rfl⟩ := List.zip_eq_cons_iff.mp more
  refine ⟨?_, ?_, ?_⟩
  · rw [← List.head?_drop, drop, List.head?_cons]
  · rw [← List.head?_drop, drop', List.head?_cons]
  · rw [links, ← List.tail_drop, ← List.tail_drop, drop, drop', List.tail_cons, List.tail_cons]

/-- The climb over positions comes to the value of the climb, and stops where the climb stops. -/
theorem exists_walk (apply : Operator → α → α → α) (least : Nat) (left : α)
    {rest : List (Operator × α)} {position : Nat} (shape : operands.length = operators.length + 1)
    (here : links operands operators position = rest) :
    ∃ count, count + (climb apply least left rest).2.val.length = rest.length ∧
      links operands operators (position + count) = (climb apply least left rest).2.val ∧
      Walk apply operands operators least left position (climb apply least left rest).1
        (position + count) (List.range' (position + 1) count) := by
  induction least, left, rest using climb_rec apply generalizing position with
  | nil least left =>
    refine ⟨0, ?_, ?_, ?_⟩
    · simp [climb]
    · simpa [climb] using here
    · simpa [climb] using Walk.finish (links_nil shape here)
  | loose least left op x tail lt =>
    refine ⟨0, ?_, ?_, ?_⟩
    · simp [climb, lt]
    · simpa [climb, lt] using here
    · simpa [climb, lt] using Walk.loose (links_cons here).1 lt
  | tight least left op x tail above ih ih' =>
    obtain ⟨next, operand, after⟩ := links_cons here
    obtain ⟨count, length, after, inner⟩ := ih after
    obtain ⟨count', length', after', outer⟩ := ih' after
    have round := climb_cons apply above left x tail
    have stop : position + 1 + count + count' = position + (1 + count + count') := by omega
    have reads : List.range' (position + 1) (1 + count + count') =
        (position + 1) :: (List.range' (position + 1 + 1) count ++
          List.range' (position + 1 + count + 1) count') := by
      have moved : position + 1 + count + 1 = position + 1 + 1 + count := by omega
      have all : 1 + count + count' = count + count' + 1 := by omega
      rw [moved, List.range'_append_1, all, List.range'_succ]
    refine ⟨1 + count + count', ?_, ?_, ?_⟩
    · rw [round.2, List.length_cons]
      omega
    · rw [round.2, ← stop, after']
    · rw [round.1, ← stop, reads]
      exact .tight next above operand inner outer

/-! ## The value of a chain -/

theorem evaluateWith_error (apply : Operator → α → α → α) (operands : List α)
    (operators : List Operator) : evaluateWith apply operands operators = .error .shape ↔
      operands.length ≠ operators.length + 1 := by
  cases operands with
  | nil => simp [evaluateWith]
  | cons first others => simp [evaluateWith]

theorem evaluateWith_ok (apply : Operator → α → α → α) (first : α) {others : List α}
    {operators : List Operator} (shape : others.length = operators.length) :
    evaluateWith apply (first :: others) operators =
      .ok (layered apply first (operators.zip others)) := by
  rw [evaluateWith, if_pos shape, (climb_zero apply first _).1]

/-- From the first operand the climb takes all others, each once and in order, and stops at the
last one. -/
theorem walk_chain (apply : Operator → α → α → α) (first : α) {others : List α}
    {operators : List Operator} (shape : others.length = operators.length) :
    Walk apply (first :: others) operators 0 first 0 (layered apply first (operators.zip others))
      operators.length (List.range' 1 operators.length) := by
  have length : (first :: others).length = operators.length + 1 := congrArg (· + 1) shape
  have whole : links (first :: others) operators 0 = operators.zip others := rfl
  obtain ⟨count, all, _, walk⟩ := exists_walk apply 0 first length whole
  have climbed := climb_zero apply first (operators.zip others)
  rw [climbed.2, List.length_nil, List.length_zip, shape, Nat.min_self, Nat.add_zero] at all
  rwa [climbed.1, all, Nat.zero_add] at walk

/-- Climbing is the layered grammar: a chain has a value when there is one operand more than there
are operators, and then it is the one that its layers have. The climb takes every operand once and
in order, up to the last. -/
theorem climbing_reads_layers (apply : Operator → α → α → α) (operands : List α)
    (operators : List Operator) :
    (evaluateWith apply operands operators = .error .shape ↔
      operands.length ≠ operators.length + 1) ∧
    ∀ first others, operands = first :: others → others.length = operators.length →
      evaluateWith apply operands operators = .ok (layered apply first (operators.zip others)) ∧
      ∀ value stop reads, Walk apply operands operators 0 first 0 value stop reads ↔
        value = layered apply first (operators.zip others) ∧ stop = operators.length ∧
          reads = List.range' 1 operators.length := by
  refine ⟨evaluateWith_error apply operands operators, ?_⟩
  rintro first others rfl shape
  refine ⟨evaluateWith_ok apply first shape, fun value stop reads => ⟨?_, ?_⟩⟩
  · exact fun walk => walk.unique (walk_chain apply first shape)
  · rintro ⟨rfl, rfl, rfl⟩
    exact walk_chain apply first shape

/-- Where every operator subtracts, `10 - 2 ** 3 ** 2 - 1` is `(10 - (2 - (3 - 2))) - 1`. -/
theorem climbing_reads_layers_of_subtractions :
    evaluateWith (fun _ a b => a - b) [10, 2, 3, 2, 1] [.sub, .pow, .pow, .sub] = .ok (8 : Int) :=
  ((climbing_reads_layers _ [(10 : Int), 2, 3, 2, 1] [.sub, .pow, .pow, .sub]).2
    10 [2, 3, 2, 1] rfl rfl).1

end LineScript.Chain
