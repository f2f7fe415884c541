import Mathlib.Data.List.Basic
import Mathlib.Logic.Relation
import Mathlib.Tactic.TypeStar

/-!
# Reading a flow tree while its jobs run

The tree of a flow is read by one lookup per job: a job's state first, and when
it has been answered, the states of its children in any order. Between the
lookups the jobs move on. The client polls until every state it got is
terminal.
-/

namespace NestQueueExample.Flows

/-- What a lookup goes by, and the fields of a job that are projected. -/
structure JobHandle (κ : Type*) where
  key : κ
  id : Option String
  name : String
  queueName : String

structure JobNode (κ : Type*) where
  job : JobHandle κ
  children : Option (List (JobNode κ))

structure FlowTreeNode where
  id : Option String
  name : String
  queue : String
  status : String
  children : List FlowTreeNode

def TERMINAL_STATES : List String := ["completed", "failed"]

def isTerminal (status : String) : Bool := TERMINAL_STATES.contains status

def FLOW_TREE_POLL_INTERVAL_MS : ℕ := 1000

variable {κ : Type*}

/-! ## Trees by place -/

def JobNode.at? : JobNode κ → List ℕ → Option (JobNode κ)
  | node, [] => some node
  | node, i :: place => ((node.children.getD [])[i]?).bind fun child ↦ child.at? place

def FlowTreeNode.at? : FlowTreeNode → List ℕ → Option FlowTreeNode
  | node, [] => some node
  | node, i :: place => (node.children[i]?).bind fun child ↦ child.at? place

def JobNode.label (node : JobNode κ) : Option String × String × String :=
  (node.job.id, node.job.name, node.job.queueName)

def FlowTreeNode.label (node : FlowTreeNode) : Option String × String × String :=
  (node.id, node.name, node.queue)

theorem JobNode.at?_child {root node : JobNode κ} {place : List ℕ} (h : root.at? place = some node)
    (i : ℕ) : root.at? (place ++ [i]) = (node.children.getD [])[i]? := by
  induction place generalizing root with
  | nil =>
      obtain rfl := Option.some.inj h
      simp [JobNode.at?]
  | cons j place ih =>
      obtain ⟨child, hchild, hrest⟩ := Option.bind_eq_some_iff.mp h
      simp [JobNode.at?, hchild, ih hrest]

theorem FlowTreeNode.at?_child {tree node : FlowTreeNode} {place : List ℕ}
    (h : tree.at? place = some node) (i : ℕ) : tree.at? (place ++ [i]) = node.children[i]? := by
  induction place generalizing tree with
  | nil =>
      obtain rfl := Option.some.inj h
      simp [FlowTreeNode.at?]
  | cons j place ih =>
      obtain ⟨child, hchild, hrest⟩ := Option.bind_eq_some_iff.mp h
      simp [FlowTreeNode.at?, hchild, ih hrest]

/-! ## The server's reading -/

mutual

/-- `projectNode`, once every lookup at and below the place has been answered. -/
def projectNode (answers : List ℕ → Option String) : JobNode κ → List ℕ → Option FlowTreeNode
  | ⟨job, none⟩, place =>
      (answers place).map fun status ↦ ⟨job.id, job.name, job.queueName, status, []⟩
  | ⟨job, some nodes⟩, place =>
      (answers place).bind fun status ↦
        (projectNodes answers nodes place 0).map fun children ↦
          ⟨job.id, job.name, job.queueName, status, children⟩

def projectNodes (answers : List ℕ → Option String) :
    List (JobNode κ) → List ℕ → ℕ → Option (List FlowTreeNode)
  | [], _, _ => some []
  | node :: nodes, place, i =>
      (projectNode answers node (place ++ [i])).bind fun child ↦
        (projectNodes answers nodes place (i + 1)).map fun children ↦ child :: children

end

/-! ## The client's finality check -/

mutual

def isTreeFinal : FlowTreeNode → Bool
  | ⟨_, _, _, status, children⟩ => isTerminal status && everyTreeFinal children

def everyTreeFinal : List FlowTreeNode → Bool
  | [] => true
  | node :: nodes => isTreeFinal node && everyTreeFinal nodes

end

def refetchInterval (data : Option FlowTreeNode) : Option ℕ :=
  match data with
  | none => some FLOW_TREE_POLL_INTERVAL_MS
  | some tree => if isTreeFinal tree then none else some FLOW_TREE_POLL_INTERVAL_MS

/-! ## Jobs that move under a reading -/

/-- The states of all jobs. A job of the flow is completed only when each of
its children is in a terminal state. -/
structure JobStates (root : JobNode κ) where
  state : κ → String
  gated : ∀ place node, root.at? place = some node → state node.job.key = "completed" →
    ∀ child ∈ node.children.getD [], isTerminal (state child.job.key) = true

def Moves {root : JobNode κ} (s s' : JobStates root) : Prop :=
  ∀ key, isTerminal (s.state key) = true → s'.state key = s.state key

/-- A reading in progress: the states of the jobs, and the answers so far. -/
structure TreeRead (root : JobNode κ) where
  states : JobStates root
  answers : List ℕ → Option String

def TreeRead.answer {root : JobNode κ} (read : TreeRead root) (place : List ℕ)
    (node : JobNode κ) : TreeRead root :=
  { read with
    answers := Function.update read.answers place (some (read.states.state node.job.key)) }

/-- The root is asked at once, and the children of a place when its answer is in. -/
inductive TreeRead.Step {root : JobNode κ} : TreeRead root → TreeRead root → Prop
  | move {read : TreeRead root} {states : JobStates root} (h : Moves read.states states) :
      Step read { read with states }
  | root {read : TreeRead root} (hopen : read.answers [] = none) : Step read (read.answer [] root)
  | child {read : TreeRead root} {place : List ℕ} {i : ℕ} {status : String} {node : JobNode κ}
      (hparent : read.answers place = some status) (hopen : read.answers (place ++ [i]) = none)
      (hnode : root.at? (place ++ [i]) = some node) :
      Step read (read.answer (place ++ [i]) node)

def JobStates.Settled {root : JobNode κ} (s : JobStates root) : Prop :=
  ∀ place node, root.at? place = some node → isTerminal (s.state node.job.key) = true

/-! ## What the projection holds -/

theorem projectNodes_eq_some {answers : List ℕ → Option String} {nodes : List (JobNode κ)}
    {place : List ℕ} {k : ℕ} {children : List FlowTreeNode}
    (h : projectNodes answers nodes place k = some children) :
    children.length = nodes.length ∧ ∀ (i : ℕ) (node : JobNode κ) (child : FlowTreeNode),
      nodes[i]? = some node → children[i]? = some child →
        projectNode answers node (place ++ [k + i]) = some child := by
  induction nodes generalizing k children with
  | nil =>
      obtain rfl := Option.some.inj h
      simp
  | cons node nodes ih =>
      obtain ⟨child, hchild, hmore⟩ := Option.bind_eq_some_iff.mp h
      obtain ⟨rest, hrest, rfl⟩ := Option.map_eq_some_iff.mp hmore
      obtain ⟨hlength, hnodes⟩ := ih hrest
      refine ⟨by simp [hlength], ?_⟩
      intro i node' child' hnode' hchild'
      cases i with
      | zero =>
          obtain rfl := Option.some.inj hnode'
          obtain rfl := Option.some.inj hchild'
          exact hchild
      | succ i =>
          have hnext := hnodes i node' child' (by simpa using hnode') (by simpa using hchild')
          rwa [show k + (i + 1) = k + 1 + i by omega]

theorem projectNode_eq_some {answers : List ℕ → Option String} {node : JobNode κ}
    {place : List ℕ} {tree : FlowTreeNode} (h : projectNode answers node place = some tree) :
    answers place = some tree.status ∧ tree.label = node.label ∧
      tree.children.length = (node.children.getD []).length ∧
      ∀ (i : ℕ) (next : JobNode κ) (child : FlowTreeNode),
        (node.children.getD [])[i]? = some next → tree.children[i]? = some child →
          projectNode answers next (place ++ [i]) = some child := by
  obtain ⟨job, _ | nodes⟩ := node
  · obtain ⟨status, hstatus, rfl⟩ := Option.map_eq_some_iff.mp h
    exact ⟨hstatus, rfl, rfl, by simp⟩
  · obtain ⟨status, hstatus, hnodes⟩ := Option.bind_eq_some_iff.mp h
    obtain ⟨children, hchildren, rfl⟩ := Option.map_eq_some_iff.mp hnodes
    obtain ⟨hlength, hprojected⟩ := projectNodes_eq_some hchildren
    refine ⟨hstatus, rfl, hlength, ?_⟩
    intro i next child hnext hchild
    simpa using hprojected i next child hnext hchild

theorem projectNode_of_nodes {answers : List ℕ → Option String} {job : JobHandle κ}
    {nodes : List (JobNode κ)} {place : List ℕ} :
    (projectNode answers ⟨job, some nodes⟩ place).isSome = true ↔
      (answers place).isSome = true ∧ (projectNodes answers nodes place 0).isSome = true := by
  rw [projectNode]
  cases answers place <;> simp

theorem projectNodes_cons {answers : List ℕ → Option String} {node : JobNode κ}
    {nodes : List (JobNode κ)} {place : List ℕ} {k : ℕ} :
    (projectNodes answers (node :: nodes) place k).isSome = true ↔
      (projectNode answers node (place ++ [k])).isSome = true ∧
        (projectNodes answers nodes place (k + 1)).isSome = true := by
  rw [projectNodes]
  cases projectNode answers node (place ++ [k]) <;> simp

mutual

/-- The tree is returned exactly when every lookup is answered. -/
theorem isSome_projectNode_iff (answers : List ℕ → Option String) :
    ∀ (node : JobNode κ) (place : List ℕ), (projectNode answers node place).isSome = true ↔
      ∀ rest sub, node.at? rest = some sub → (answers (place ++ rest)).isSome = true
  | ⟨job, none⟩, place => by
      rw [projectNode, Option.isSome_map]
      constructor
      · intro hanswered rest sub hsub
        cases rest with
        | nil => simpa using hanswered
        | cons i rest => simp [JobNode.at?] at hsub
      · intro hall
        simpa using hall [] _ rfl
  | ⟨job, some nodes⟩, place => by
      rw [projectNode_of_nodes, isSome_projectNodes_iff answers nodes place 0]
      constructor
      · rintro ⟨hanswered, hnodes⟩ rest sub hsub
        cases rest with
        | nil => simpa using hanswered
        | cons i rest =>
            obtain ⟨child, hchild, hrest⟩ := Option.bind_eq_some_iff.mp hsub
            simpa using hnodes i child rest sub hchild hrest
      · intro hall
        refine ⟨by simpa using hall [] _ rfl, fun i child rest sub hchild hsub ↦ ?_⟩
        have hchild' : nodes[i]? = some child := hchild
        simpa using hall (i :: rest) sub (by simp [JobNode.at?, hchild', hsub])

theorem isSome_projectNodes_iff (answers : List ℕ → Option String) :
    ∀ (nodes : List (JobNode κ)) (place : List ℕ) (k : ℕ),
      (projectNodes answers nodes place k).isSome = true ↔
        ∀ (i : ℕ) (child : JobNode κ) rest sub, nodes[i]? = some child →
          child.at? rest = some sub → (answers (place ++ (k + i) :: rest)).isSome = true
  | [], place, k => by simp [projectNodes]
  | node :: nodes, place, k => by
      rw [projectNodes_cons, isSome_projectNode_iff answers node (place ++ [k]),
        isSome_projectNodes_iff answers nodes place (k + 1)]
      constructor
      · rintro ⟨hnode, hnodes⟩ i child rest sub hchild hsub
        cases i with
        | zero =>
            obtain rfl := Option.some.inj hchild
            simpa using hnode rest sub hsub
        | succ i =>
            have hnext := hnodes i child rest sub (by simpa using hchild) hsub
            rwa [show k + (i + 1) = k + 1 + i by omega]
      · intro hall
        refine ⟨fun rest sub hsub ↦ by simpa using hall 0 node rest sub rfl hsub,
          fun i child rest sub hchild hsub ↦ ?_⟩
        rw [show k + 1 + i = k + (i + 1) by omega]
        exact hall (i + 1) child rest sub (by simpa using hchild) hsub

end

theorem at?_projectNode {answers : List ℕ → Option String} {node : JobNode κ}
    {place : List ℕ} {tree : FlowTreeNode} (h : projectNode answers node place = some tree)
    (rest : List ℕ) :
    (tree.at? rest).map FlowTreeNode.label = (node.at? rest).map JobNode.label ∧
      ∀ sub, tree.at? rest = some sub → answers (place ++ rest) = some sub.status := by
  induction rest generalizing node place tree with
  | nil =>
      obtain ⟨hstatus, hlabel, -, -⟩ := projectNode_eq_some h
      refine ⟨by simp [FlowTreeNode.at?, JobNode.at?, hlabel], fun sub hsub ↦ ?_⟩
      obtain rfl := Option.some.inj hsub
      simpa using hstatus
  | cons i rest ih =>
      obtain ⟨-, -, hlength, hchildren⟩ := projectNode_eq_some h
      simp only [FlowTreeNode.at?, JobNode.at?]
      rcases Nat.lt_or_ge i tree.children.length with hlt | hge
      · have hlt' : i < (node.children.getD []).length := hlength ▸ hlt
        have hchild := hchildren i _ _ (List.getElem?_eq_getElem hlt')
          (List.getElem?_eq_getElem hlt)
        rw [List.getElem?_eq_getElem hlt, List.getElem?_eq_getElem hlt']
        simpa using ih hchild
      · rw [List.getElem?_eq_none hge, List.getElem?_eq_none (hlength ▸ hge)]
        simp

mutual

theorem isTreeFinal_iff : ∀ tree : FlowTreeNode, isTreeFinal tree = true ↔
    ∀ place sub, tree.at? place = some sub → isTerminal sub.status = true
  | ⟨id, name, queue, status, children⟩ => by
      rw [isTreeFinal, Bool.and_eq_true, everyTreeFinal_iff children]
      constructor
      · rintro ⟨hstatus, hchildren⟩ place sub hsub
        cases place with
        | nil =>
            obtain rfl := Option.some.inj hsub
            exact hstatus
        | cons i place =>
            obtain ⟨child, hchild, hrest⟩ := Option.bind_eq_some_iff.mp hsub
            exact hchildren i child place sub hchild hrest
      · intro hall
        refine ⟨hall [] _ rfl, fun i child place sub hchild hsub ↦ ?_⟩
        exact hall (i :: place) sub (by simp [FlowTreeNode.at?, hchild, hsub])

theorem everyTreeFinal_iff : ∀ nodes : List FlowTreeNode, everyTreeFinal nodes = true ↔
    ∀ (i : ℕ) (child : FlowTreeNode) place sub, nodes[i]? = some child →
      child.at? place = some sub → isTerminal sub.status = true
  | [] => by simp [everyTreeFinal]
  | node :: nodes => by
      rw [everyTreeFinal, Bool.and_eq_true, isTreeFinal_iff node, everyTreeFinal_iff nodes]
      constructor
      · rintro ⟨hnode, hnodes⟩ i child place sub hchild hsub
        cases i with
        | zero =>
            obtain rfl := Option.some.inj hchild
            exact hnode place sub hsub
        | succ i => exact hnodes i child place sub (by simpa using hchild) hsub
      · intro hall
        refine ⟨fun place sub hsub ↦ hall 0 node place sub rfl hsub,
          fun i child place sub hchild hsub ↦ ?_⟩
        exact hall (i + 1) child place sub (by simpa using hchild) hsub

end

/-! ## What every reading keeps -/

variable {root : JobNode κ}

/-- A terminal answer is still the state of its job, and below the answer
`completed` every answer is terminal, since a parent is answered before its
children are asked. -/
structure TreeRead.Valid (read : TreeRead root) : Prop where
  answered : ∀ place status, read.answers place = some status → ∃ node,
    root.at? place = some node ∧
      (isTerminal status = true → read.states.state node.job.key = status)
  parent : ∀ place i status, read.answers (place ++ [i]) = some status →
    (read.answers place).isSome = true
  below : ∀ place i status, read.answers place = some "completed" →
    read.answers (place ++ [i]) = some status → isTerminal status = true

theorem TreeRead.Valid.move {read : TreeRead root} (h : read.Valid) {states : JobStates root}
    (hmoves : Moves read.states states) : TreeRead.Valid { read with states } where
  answered := by
    intro place status hstatus
    obtain ⟨node, hnode, hkept⟩ := h.answered place status hstatus
    refine ⟨node, hnode, fun hterminal ↦ ?_⟩
    have hstate := hkept hterminal
    rw [hmoves node.job.key (by rw [hstate]; exact hterminal), hstate]
  parent := h.parent
  below := h.below

theorem TreeRead.Valid.answer {read : TreeRead root} (h : read.Valid) {place : List ℕ}
    {node : JobNode κ} (hopen : read.answers place = none) (hnode : root.at? place = some node)
    (hasked : ∀ above i, place = above ++ [i] → (read.answers above).isSome = true) :
    (read.answer place node).Valid where
  answered := by
    intro other status hstatus
    by_cases hother : other = place
    · subst hother
      obtain rfl : read.states.state node.job.key = status := by
        simpa [TreeRead.answer] using hstatus
      exact ⟨node, hnode, fun _ ↦ rfl⟩
    · exact h.answered other status (by simpa [TreeRead.answer, hother] using hstatus)
  parent := by
    intro above i status hstatus
    have hparent : (read.answers above).isSome = true := by
      by_cases hplace : above ++ [i] = place
      · exact hasked above i hplace.symm
      · exact h.parent above i status (by simpa [TreeRead.answer, hplace] using hstatus)
    by_cases habove : above = place
    · simp [TreeRead.answer, habove]
    · simpa [TreeRead.answer, habove] using hparent
  below := by
    intro above i status hcompleted hstatus
    by_cases hplace : above ++ [i] = place
    · subst hplace
      have hne : above ≠ above ++ [i] := by simp
      obtain ⟨parent, hparent, hkept⟩ :=
        h.answered above "completed" (by simpa [TreeRead.answer, hne] using hcompleted)
      obtain rfl : read.states.state node.job.key = status := by
        simpa [TreeRead.answer] using hstatus
      have hchild : (parent.children.getD [])[i]? = some node := by
        rw [← JobNode.at?_child hparent, hnode]
      exact read.states.gated above parent hparent (hkept (by decide)) node
        (List.mem_of_getElem? hchild)
    · have hbelow : read.answers (above ++ [i]) = some status := by
        simpa [TreeRead.answer, hplace] using hstatus
      by_cases habove : above = place
      · subst habove
        have hparent := h.parent above i status hbelow
        simp [hopen] at hparent
      · exact h.below above i status (by simpa [TreeRead.answer, habove] using hcompleted) hbelow

theorem TreeRead.Valid.step {read read' : TreeRead root} (h : read.Valid)
    (hstep : TreeRead.Step read read') : read'.Valid := by
  cases hstep with
  | move hmoves => exact h.move hmoves
  | root hopen => exact h.answer hopen rfl (by simp)
  | child hparent hopen hnode =>
      refine h.answer hopen hnode fun above i hplace ↦ ?_
      obtain ⟨rfl, -⟩ := List.append_inj' hplace rfl
      simp [hparent]

theorem TreeRead.Valid.steps {read read' : TreeRead root} (h : read.Valid)
    (hsteps : Relation.ReflTransGen TreeRead.Step read read') : read'.Valid := by
  induction hsteps with
  | refl => exact h
  | tail _ hstep ih => exact ih.step hstep

structure TreeRead.Final (read : TreeRead root) : Prop where
  settled : read.states.Settled
  answers : ∀ place status, read.answers place = some status → isTerminal status = true

theorem JobStates.Settled.moves {s s' : JobStates root} (h : s.Settled) (hmoves : Moves s s') :
    s'.Settled := by
  intro place node hnode
  rw [hmoves node.job.key (h place node hnode)]
  exact h place node hnode

theorem TreeRead.Final.answer {read : TreeRead root} (h : read.Final) {place : List ℕ}
    {node : JobNode κ} (hnode : root.at? place = some node) :
    (read.answer place node).Final where
  settled := h.settled
  answers := by
    intro other status hstatus
    by_cases hother : other = place
    · subst hother
      obtain rfl : read.states.state node.job.key = status := by
        simpa [TreeRead.answer] using hstatus
      exact h.settled other node hnode
    · exact h.answers other status (by simpa [TreeRead.answer, hother] using hstatus)

theorem TreeRead.Final.steps {read read' : TreeRead root} (h : read.Final)
    (hsteps : Relation.ReflTransGen TreeRead.Step read read') : read'.Final := by
  induction hsteps with
  | refl => exact h
  | tail _ hstep ih =>
      cases hstep with
      | move hmoves => exact ⟨ih.settled.moves hmoves, ih.answers⟩
      | root hopen => exact ih.answer rfl
      | child hparent hopen hnode => exact ih.answer hnode

def TreeRead.start (states : JobStates root) : TreeRead root := ⟨states, fun _ ↦ none⟩

theorem TreeRead.valid_start (states : JobStates root) : (TreeRead.start states).Valid :=
  ⟨by simp [start], by simp [start], by simp [start]⟩

/-- A final tree shows a settled flow, and it stays one. -/
theorem settled_of_isTreeFinal {read : TreeRead root} (hvalid : read.Valid) {tree : FlowTreeNode}
    (htree : projectNode read.answers root [] = some tree) (hfinal : isTreeFinal tree = true) :
    read.states.Settled := by
  intro place node hnode
  obtain ⟨hlabel, hanswers⟩ := at?_projectNode htree place
  rw [hnode, Option.map_some] at hlabel
  obtain ⟨sub, hsub, -⟩ := Option.map_eq_some_iff.mp hlabel
  have hterminal := (isTreeFinal_iff tree).mp hfinal place sub hsub
  obtain ⟨node', hnode', hkept⟩ :=
    hvalid.answered place sub.status (by simpa using hanswers sub hsub)
  obtain rfl := Option.some.inj (hnode.symm.trans hnode')
  rw [hkept hterminal]
  exact hterminal

/-! ## Every reading comes to an end -/

theorem isSome_answers_of_steps {read read' : TreeRead root}
    (hsteps : Relation.ReflTransGen TreeRead.Step read read') {place : List ℕ}
    (h : (read.answers place).isSome = true) : (read'.answers place).isSome = true := by
  have hanswer (read : TreeRead root) (asked : List ℕ) (node : JobNode κ)
      (h : (read.answers place).isSome = true) :
      ((read.answer asked node).answers place).isSome = true := by
    by_cases hplace : place = asked
    · simp [TreeRead.answer, hplace]
    · simpa [TreeRead.answer, hplace] using h
  induction hsteps with
  | refl => exact h
  | tail _ hstep ih =>
      cases hstep with
      | move hmoves => exact ih
      | root hopen => exact hanswer _ [] root ih
      | child hparent hopen hnode => exact hanswer _ _ _ ih

theorem isSome_projectNode_of_steps {read read' : TreeRead root}
    (hsteps : Relation.ReflTransGen TreeRead.Step read read') {node : JobNode κ} {place : List ℕ}
    (h : (projectNode read.answers node place).isSome = true) :
    (projectNode read'.answers node place).isSome = true := by
  rw [isSome_projectNode_iff] at h ⊢
  exact fun rest sub hsub ↦ isSome_answers_of_steps hsteps (h rest sub hsub)

theorem exists_answered (read : TreeRead root) {place : List ℕ} {node : JobNode κ}
    (hnode : root.at? place = some node)
    (hasked : ∀ above i, place = above ++ [i] → (read.answers above).isSome = true) :
    ∃ read', Relation.ReflTransGen TreeRead.Step read read' ∧
      (read'.answers place).isSome = true := by
  cases hopen : read.answers place with
  | some status => exact ⟨read, .refl, by simp [hopen]⟩
  | none =>
      refine ⟨read.answer place node, .single ?_, by simp [TreeRead.answer]⟩
      rcases List.eq_nil_or_concat place with rfl | ⟨above, i, rfl⟩
      · obtain rfl := Option.some.inj hnode
        exact .root hopen
      · obtain ⟨status, hstatus⟩ := Option.isSome_iff_exists.mp (hasked above i (by simp))
        rw [List.concat_eq_append] at hopen hnode ⊢
        exact .child hstatus hopen hnode

mutual

theorem exists_projectNode : ∀ (node : JobNode κ) (place : List ℕ) (read : TreeRead root),
    root.at? place = some node →
    (∀ above i, place = above ++ [i] → (read.answers above).isSome = true) →
    ∃ read', Relation.ReflTransGen TreeRead.Step read read' ∧
      (projectNode read'.answers node place).isSome = true
  | ⟨job, none⟩, place, read, hnode, hasked => by
      obtain ⟨read', hsteps, hanswered⟩ := exists_answered read hnode hasked
      exact ⟨read', hsteps, by simpa [projectNode] using hanswered⟩
  | ⟨job, some nodes⟩, place, read, hnode, hasked => by
      obtain ⟨read', hsteps, hanswered⟩ := exists_answered read hnode hasked
      obtain ⟨read'', hsteps', hnodes⟩ := exists_projectNodes nodes place 0 read'
        (fun i child hchild ↦ by simpa [JobNode.at?_child hnode] using hchild) hanswered
      refine ⟨read'', hsteps.trans hsteps', projectNode_of_nodes.mpr ⟨?_, hnodes⟩⟩
      exact isSome_answers_of_steps hsteps' hanswered

theorem exists_projectNodes : ∀ (nodes : List (JobNode κ)) (place : List ℕ) (k : ℕ)
    (read : TreeRead root),
    (∀ (i : ℕ) (child : JobNode κ), nodes[i]? = some child →
      root.at? (place ++ [k + i]) = some child) →
    (read.answers place).isSome = true →
    ∃ read', Relation.ReflTransGen TreeRead.Step read read' ∧
      (projectNodes read'.answers nodes place k).isSome = true
  | [], place, k, read, _, _ => ⟨read, .refl, by simp [projectNodes]⟩
  | node :: nodes, place, k, read, hnodes, hanswered => by
      obtain ⟨read', hsteps, hnode⟩ := exists_projectNode node (place ++ [k]) read
        (hnodes 0 node rfl) fun above i hplace ↦ by
          obtain ⟨rfl, -⟩ := List.append_inj' hplace rfl
          exact hanswered
      obtain ⟨read'', hsteps', hrest⟩ := exists_projectNodes nodes place (k + 1) read'
        (fun i child hchild ↦ by
          rw [show k + 1 + i = k + (i + 1) by omega]
          exact hnodes (i + 1) child (by simpa using hchild))
        (isSome_answers_of_steps hsteps hanswered)
      refine ⟨read'', hsteps.trans hsteps', projectNodes_cons.mpr ⟨?_, hrest⟩⟩
      exact isSome_projectNode_of_steps hsteps' hnode

end

/-- For any tree and any interleaving of the lookups with moves of the jobs, the
tree is returned exactly when each of its places has been answered, and every
reading can be carried on to there. The returned tree has the places and labels
of the flow; the children of a node shown `completed` are shown terminal; when
the client stops polling, the flow is settled from then on; and a flow settled
before the reading stops it. -/
theorem readTree_consistent (root : JobNode κ) (before : JobStates root) (read : TreeRead root)
    (hread : Relation.ReflTransGen TreeRead.Step (TreeRead.start before) read) :
    ((projectNode read.answers root []).isSome = true ↔
      ∀ place node, root.at? place = some node → (read.answers place).isSome = true) ∧
    (∃ done, Relation.ReflTransGen TreeRead.Step read done ∧
      (projectNode done.answers root []).isSome = true) ∧
    ∀ tree, projectNode read.answers root [] = some tree →
      (∀ place, (tree.at? place).map FlowTreeNode.label = (root.at? place).map JobNode.label) ∧
      (∀ place node, tree.at? place = some node → node.status = "completed" →
        ∀ child ∈ node.children, child.status = "completed" ∨ child.status = "failed") ∧
      (isTreeFinal tree = true → ∀ later, Relation.ReflTransGen Moves read.states later →
        later.Settled) ∧
      (before.Settled → isTreeFinal tree = true) ∧
      (refetchInterval (some tree) = none ↔ isTreeFinal tree = true) := by
  have hvalid := (TreeRead.valid_start before).steps hread
  refine ⟨by simpa using isSome_projectNode_iff read.answers root [],
    exists_projectNode root [] read rfl (by simp), fun tree htree ↦ ?_⟩
  refine ⟨fun place ↦ (at?_projectNode htree place).1, ?_, ?_, ?_, ?_⟩
  · intro place node hnode hcompleted child hchild
    obtain ⟨i, hi⟩ := List.mem_iff_getElem?.mp hchild
    have hstatus := (at?_projectNode htree place).2 node hnode
    have hbelow := (at?_projectNode htree (place ++ [i])).2 child
      (by rw [FlowTreeNode.at?_child hnode, hi])
    rw [hcompleted] at hstatus
    have hterminal := hvalid.below place i child.status (by simpa using hstatus)
      (by simpa using hbelow)
    simpa [isTerminal, TERMINAL_STATES] using hterminal
  · intro hfinal later hlater
    induction hlater with
    | refl => exact settled_of_isTreeFinal hvalid htree hfinal
    | tail _ hmoves ih => exact ih.moves hmoves
  · intro hsettled
    have hfinal := (TreeRead.Final.mk hsettled (by simp [TreeRead.start])).steps hread
    rw [isTreeFinal_iff]
    intro place sub hsub
    exact hfinal.answers place _ (by simpa using (at?_projectNode htree place).2 sub hsub)
  · simp [refetchInterval]

/-! The invoice branch of a fulfillment flow, with one of its fetches. -/

def fetchLinesNode : JobNode ℕ := ⟨⟨2, some "3", "fetch-lines", "invoices-data"⟩, none⟩

def renderInvoiceNode : JobNode ℕ :=
  ⟨⟨1, some "2", "render-invoice", "invoices"⟩, some [fetchLinesNode]⟩

def invoiceBranch : JobNode ℕ :=
  ⟨⟨0, some "1", "ship-order", "fulfillment"⟩, some [renderInvoiceNode]⟩

def branchState (ship render fetch : String) : ℕ → String
  | 0 => ship
  | 1 => render
  | _ => fetch

def branchStates (ship render fetch : String)
    (hship : ship = "completed" → isTerminal render = true)
    (hrender : render = "completed" → isTerminal fetch = true) : JobStates invoiceBranch where
  state := branchState ship render fetch
  gated := by
    intro place node hnode hcompleted child hchild
    rcases place with _ | ⟨_ | i, _ | ⟨_ | j, _ | ⟨k, place⟩⟩⟩
    all_goals simp [invoiceBranch, renderInvoiceNode, fetchLinesNode, JobNode.at?] at hnode
    all_goals subst hnode; simp at hchild
    all_goals subst hchild
    · exact hship hcompleted
    · exact hrender hcompleted

def fetching : JobStates invoiceBranch :=
  branchStates "waiting-children" "waiting-children" "active" (by decide) (by decide)

def rendered : JobStates invoiceBranch :=
  branchStates "waiting-children" "completed" "completed" (by decide) (by decide)

theorem moves_rendered : Moves fetching rendered := by
  intro key hkey
  rcases key with _ | _ | key
  · rfl
  · exact absurd hkey (by decide)
  · exact absurd (show isTerminal "active" = true from hkey) (by decide)

/-- The root is asked, the branch below it completes, and is asked then. -/
def askedRead : TreeRead invoiceBranch := (TreeRead.start fetching).answer [] invoiceBranch

def renderedRead : TreeRead invoiceBranch :=
  TreeRead.answer { askedRead with states := rendered } [0] renderInvoiceNode

def movedRead : TreeRead invoiceBranch := renderedRead.answer [0, 0] fetchLinesNode

theorem movedRead_steps :
    Relation.ReflTransGen TreeRead.Step (TreeRead.start fetching) movedRead := by
  have hroot : TreeRead.Step (TreeRead.start fetching) askedRead := .root rfl
  have hmove : TreeRead.Step askedRead { askedRead with states := rendered } :=
    .move moves_rendered
  have hship : askedRead.answers [] = some "waiting-children" := rfl
  have hrender : TreeRead.Step { askedRead with states := rendered } renderedRead :=
    @TreeRead.Step.child ℕ invoiceBranch _ [] 0 _ _ hship rfl rfl
  have hcompleted : renderedRead.answers [0] = some "completed" := rfl
  have hfetch : TreeRead.Step renderedRead movedRead :=
    @TreeRead.Step.child ℕ invoiceBranch _ [0] 0 _ _ hcompleted rfl rfl
  exact (((Relation.ReflTransGen.single hroot).tail hmove).tail hrender).tail hfetch

def movedTree : FlowTreeNode :=
  ⟨some "1", "ship-order", "fulfillment", "waiting-children",
    [⟨some "2", "render-invoice", "invoices", "completed",
      [⟨some "3", "fetch-lines", "invoices-data", "completed", []⟩]⟩]⟩

theorem readTree_consistent_moving :
    projectNode movedRead.answers invoiceBranch [] = some movedTree ∧
      refetchInterval (some movedTree) = some FLOW_TREE_POLL_INTERVAL_MS ∧
      (∀ place node, movedTree.at? place = some node → node.status = "completed" →
        ∀ child ∈ node.children, child.status = "completed" ∨ child.status = "failed") ∧
      ∀ place node, invoiceBranch.at? place = some node →
        (movedRead.answers place).isSome = true := by
  have htree : projectNode movedRead.answers invoiceBranch [] = some movedTree := rfl
  obtain ⟨hanswered, -, hread⟩ :=
    readTree_consistent invoiceBranch fetching movedRead movedRead_steps
  exact ⟨htree, rfl, (hread movedTree htree).2.1, hanswered.mp (by rw [htree]; rfl)⟩

end NestQueueExample.Flows
