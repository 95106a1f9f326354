import CestWriter.Yaml.Token

/-!
# Nodes

The tree of nodes that the tokens of a document describe. A builder keeps the collections that are
still open around the current token and the nodes that have names; what it expects next is its
state. A key or a value that is left out is an empty scalar.
-/

namespace CestWriter.Yaml

/-- A node of a document. -/
inductive Node where
  | scalar (s : Scalar)
  | sequence (items : List Node)
  | mapping (entries : List (Node × Node))
deriving Repr

/-- The node of a value that is left out. -/
def Node.empty : Node :=
  .scalar .empty

/-- A node that is given a type. -/
def Node.withTag (tag : Tag) : Node → Node
  | .scalar s => .scalar (s.withTag tag)
  | node => node

/-- What a node that is being read belongs to. What an open collection holds so far is in
reverse. -/
inductive Frame where
  /-- The node has a name. -/
  | anchored (name : String)
  /-- The node has a type. It stands above a name that the node has too. -/
  | tagged (type : Tag)
  | sequence (items : List Node)
  /-- A block sequence directly under a key, which ends without a mark. -/
  | run (items : List Node)
  | key (entries : List (Node × Node))
  | value (entries : List (Node × Node)) (key : Node)
  | flowItem (items : List Node)
  /-- The key of a single pair in a sequence in brackets. -/
  | pairKey (items : List Node)
  | pairValue (items : List Node) (key : Node)
  | flowKey (entries : List (Node × Node))
  /-- A key in brackets that no colon follows. -/
  | flowLoneKey (entries : List (Node × Node))
  | flowValue (entries : List (Node × Node)) (key : Node)

/-- What may come next. -/
inductive State where
  /-- The document. -/
  | before
  /-- The mark that begins the document, or another line about it; the flag is set when the version
  is stated. -/
  | directed (versioned : Bool)
  /-- The node of the document, or its end. -/
  | opened
  /-- A node. -/
  | node (frames : List Frame)
  /-- An item of a block sequence, or its end. -/
  | items (items : List Node) (outer : List Frame)
  /-- An item of a sequence under a key, or what follows the sequence. -/
  | run (items : List Node) (outer : List Frame)
  /-- A key of a block mapping, or its end. -/
  | entries (entries : List (Node × Node)) (outer : List Frame)
  /-- The value of a key in a block mapping. -/
  | afterKey (entries : List (Node × Node)) (key : Node) (outer : List Frame)
  /-- An item of a sequence in brackets, or its end. -/
  | flowItems (items : List Node) (outer : List Frame)
  /-- What follows an item of a sequence in brackets. -/
  | afterFlowItem (items : List Node) (outer : List Frame)
  /-- The value of a key in a sequence in brackets. -/
  | afterPairKey (items : List Node) (key : Node) (outer : List Frame)
  /-- A key of a mapping in brackets, or its end. -/
  | flowEntries (entries : List (Node × Node)) (outer : List Frame)
  /-- The value of a key in a mapping in brackets. -/
  | afterFlowKey (entries : List (Node × Node)) (key : Node) (outer : List Frame)
  /-- What follows an entry of a mapping in brackets. -/
  | afterFlowEntry (entries : List (Node × Node)) (outer : List Frame)
  /-- The end of the document. -/
  | done (node : Node)
  /-- The end of the text. -/
  | closed (node : Node)
  /-- Nothing. -/
  | finished (node : Node)

/-- What has been read of a document. -/
structure Builder where
  /-- The nodes that have names, the latest first. -/
  anchors : List (String × Node) := []
  state : State := .before

namespace Builder

/-- Puts a complete node where it belongs. -/
def complete (anchors : List (String × Node)) (node : Node) : List Frame → Builder
  | [] => ⟨anchors, .done node⟩
  | .anchored name :: outer => complete ((name, node) :: anchors) node outer
  | .tagged type :: outer => complete anchors (node.withTag type) outer
  | .sequence items :: outer => ⟨anchors, .items (node :: items) outer⟩
  | .run items :: outer => ⟨anchors, .run (node :: items) outer⟩
  | .key entries :: outer => ⟨anchors, .afterKey entries node outer⟩
  | .value entries key :: outer => ⟨anchors, .entries ((key, node) :: entries) outer⟩
  | .flowItem items :: outer => ⟨anchors, .afterFlowItem (node :: items) outer⟩
  | .pairKey items :: outer => ⟨anchors, .afterPairKey items node outer⟩
  | .pairValue items key :: outer =>
    ⟨anchors, .afterFlowItem (.mapping [(key, node)] :: items) outer⟩
  | .flowKey entries :: outer => ⟨anchors, .afterFlowKey entries node outer⟩
  | .flowLoneKey entries :: outer => ⟨anchors, .afterFlowEntry ((node, .empty) :: entries) outer⟩
  | .flowValue entries key :: outer => ⟨anchors, .afterFlowEntry ((key, node) :: entries) outer⟩

/-- The frames below the name and the type of a node. -/
def below : List Frame → List Frame
  | .anchored _ :: outer => below outer
  | .tagged _ :: outer => below outer
  | frames => frames

/-- Whether the node that is being read may be a block collection. -/
def admitsBlock (frames : List Frame) : Bool :=
  match below frames with
  | [] | .sequence _ :: _ | .run _ :: _ | .key _ :: _ | .value _ _ :: _ => true
  | _ => false

/-- Whether the node that is being read may be a sequence without indentation. -/
def admitsRun (frames : List Frame) : Bool :=
  match below frames with
  | .key _ :: _ | .value _ _ :: _ => true
  | _ => false

/-- Whether the node that is being read has a name or a type already. -/
def hasProperty : List Frame → Bool
  | .anchored _ :: _ | .tagged _ :: _ => true
  | _ => false

/-- Whether a name may be given to the node that is being read. -/
def admitsAnchor : List Frame → Bool
  | .anchored _ :: _ | .tagged _ :: .anchored _ :: _ => false
  | _ => true

/-- The frames of a node that is given a name. -/
def addAnchor (name : String) : List Frame → List Frame
  | .tagged type :: outer => .tagged type :: .anchored name :: outer
  | frames => .anchored name :: frames

/-- Whether a type may be given to the node that is being read. -/
def admitsTag : List Frame → Bool
  | .tagged _ :: _ => false
  | _ => true

/-- Begins a node with a token; nothing if no node begins with it. -/
def begin? (anchors : List (String × Node)) (frames : List Frame) :
    Token → Except Fault (Option Builder)
  | .scalar s => .ok (some (complete anchors (.scalar s) frames))
  | .alias name =>
    if hasProperty frames then .ok none
    else
      match anchors.lookup name with
      | some node => .ok (some (complete anchors node frames))
      | none => .error (.unknownAnchor name)
  | .anchor name =>
    .ok (if admitsAnchor frames then some ⟨anchors, .node (addAnchor name frames)⟩ else none)
  | .tag type =>
    .ok (if admitsTag frames then some ⟨anchors, .node (.tagged type :: frames)⟩ else none)
  | .flowSequence => .ok (some ⟨anchors, .flowItems [] frames⟩)
  | .flowMapping => .ok (some ⟨anchors, .flowEntries [] frames⟩)
  | .blockSequence => .ok (if admitsBlock frames then some ⟨anchors, .items [] frames⟩ else none)
  | .blockMapping => .ok (if admitsBlock frames then some ⟨anchors, .entries [] frames⟩ else none)
  | .item => .ok (if admitsRun frames then some ⟨anchors, .node (.run [] :: frames)⟩ else none)
  | _ => .ok none

/-- Whether a token that begins no node may come instead of one, which is then left out. -/
def leavesOut : List Frame → Token → Bool
  | .anchored _ :: _, _ | .tagged _ :: _, _ => true
  | .sequence _ :: _, t => t == .item || t == .blockEnd
  | .run _ :: _, t => t == .item || t == .key || t == .value || t == .blockEnd
  | .key _ :: _, t | .value _ _ :: _, t => t == .key || t == .value || t == .blockEnd
  | .pairValue _ _ :: _, t => t == .comma || t == .flowSequenceEnd
  | .flowKey _ :: _, t => t == .value || t == .comma || t == .flowMappingEnd
  | .flowValue _ _ :: _, t => t == .comma || t == .flowMappingEnd
  | _, _ => false

/-- Takes a token where a node must come. -/
def beginNode (anchors : List (String × Node)) (frames : List Frame) (t : Token) :
    Except Fault Builder := do
  match ← begin? anchors frames t with
  | some b => return b
  | none => throw .misplaced

/-- Takes a token after the node of the document. -/
def inDone (anchors : List (String × Node)) (node : Node) : Token → Except Fault Builder
  | .documentEnd => .ok ⟨anchors, .closed node⟩
  | .streamEnd => .ok ⟨anchors, .finished node⟩
  | .documentStart | .directive _ => .error .several
  | _ => .error .misplaced

/-- Takes a token after the mark that ends the document. -/
def inClosed (anchors : List (String × Node)) (node : Node) : Token → Except Fault Builder
  | .documentEnd => .ok ⟨anchors, .closed node⟩
  | .streamEnd => .ok ⟨anchors, .finished node⟩
  | _ => .error .several

/-- Takes a token before the document. -/
def inBefore (anchors : List (String × Node)) : Token → Except Fault Builder
  | .directive d => .ok ⟨anchors, .directed (d == .version)⟩
  | .documentStart => .ok ⟨anchors, .opened⟩
  | .streamEnd => .ok ⟨anchors, .finished .empty⟩
  | t => beginNode anchors [] t

/-- Takes a token after a line about the document. The version is stated only once. -/
def inDirected (anchors : List (String × Node)) (versioned : Bool) : Token → Except Fault Builder
  | .documentStart => .ok ⟨anchors, .opened⟩
  | .directive d =>
    if versioned && d == .version then .error .misplaced
    else .ok ⟨anchors, .directed (versioned || d == .version)⟩
  | _ => .error .misplaced

/-- Whether a token ends a document. -/
def endsDocument : Token → Bool
  | .documentEnd | .streamEnd | .documentStart | .directive _ => true
  | _ => false

/-- Takes a token after the mark that begins the document. -/
def inOpened (anchors : List (String × Node)) (t : Token) : Except Fault Builder :=
  if endsDocument t then inDone anchors .empty t else beginNode anchors [] t

/-- Takes a token after an item of a block sequence. -/
def inItems (anchors : List (String × Node)) (items : List Node) (outer : List Frame) :
    Token → Except Fault Builder
  | .item => .ok ⟨anchors, .node (.sequence items :: outer)⟩
  | .blockEnd => .ok (complete anchors (.sequence items.reverse) outer)
  | _ => .error .misplaced

/-- Takes a token after an entry of a block mapping. -/
def inEntries (anchors : List (String × Node)) (entries : List (Node × Node))
    (outer : List Frame) : Token → Except Fault Builder
  | .key => .ok ⟨anchors, .node (.key entries :: outer)⟩
  | .blockEnd => .ok (complete anchors (.mapping entries.reverse) outer)
  | _ => .error .misplaced

/-- Takes a token after a key of a block mapping. -/
def inAfterKey (anchors : List (String × Node)) (entries : List (Node × Node)) (key : Node)
    (outer : List Frame) : Token → Except Fault Builder
  | .value => .ok ⟨anchors, .node (.value entries key :: outer)⟩
  | t => inEntries anchors ((key, .empty) :: entries) outer t

/-- Takes a token after a sequence under a key, where the builder stands after the node. -/
def afterRun (b : Builder) (t : Token) : Except Fault Builder :=
  match b.state with
  | .entries entries outer => inEntries b.anchors entries outer t
  | .afterKey entries key outer => inAfterKey b.anchors entries key outer t
  | _ => .error .misplaced

/-- Takes a token after an item of a sequence under a key. -/
def inRun (anchors : List (String × Node)) (items : List Node) (outer : List Frame) :
    Token → Except Fault Builder
  | .item => .ok ⟨anchors, .node (.run items :: outer)⟩
  | t => (complete anchors (.sequence items.reverse) outer).afterRun t

/-- Takes a token at the beginning of a sequence in brackets or after a comma in it. -/
def inFlowItems (anchors : List (String × Node)) (items : List Node) (outer : List Frame) :
    Token → Except Fault Builder
  | .flowSequenceEnd => .ok (complete anchors (.sequence items.reverse) outer)
  | .key => .ok ⟨anchors, .node (.pairKey items :: outer)⟩
  | t => beginNode anchors (.flowItem items :: outer) t

/-- Takes a token after an item of a sequence in brackets. -/
def inAfterFlowItem (anchors : List (String × Node)) (items : List Node) (outer : List Frame) :
    Token → Except Fault Builder
  | .comma => .ok ⟨anchors, .flowItems items outer⟩
  | .flowSequenceEnd => .ok (complete anchors (.sequence items.reverse) outer)
  | _ => .error .misplaced

/-- Takes a token after a key in a sequence in brackets. -/
def inAfterPairKey (anchors : List (String × Node)) (items : List Node) (key : Node)
    (outer : List Frame) : Token → Except Fault Builder
  | .value => .ok ⟨anchors, .node (.pairValue items key :: outer)⟩
  | t => inAfterFlowItem anchors (.mapping [(key, .empty)] :: items) outer t

/-- Takes a token at the beginning of a mapping in brackets or after a comma in it. -/
def inFlowEntries (anchors : List (String × Node)) (entries : List (Node × Node))
    (outer : List Frame) : Token → Except Fault Builder
  | .flowMappingEnd => .ok (complete anchors (.mapping entries.reverse) outer)
  | .key => .ok ⟨anchors, .node (.flowKey entries :: outer)⟩
  | t => beginNode anchors (.flowLoneKey entries :: outer) t

/-- Takes a token after an entry of a mapping in brackets. -/
def inAfterFlowEntry (anchors : List (String × Node)) (entries : List (Node × Node))
    (outer : List Frame) : Token → Except Fault Builder
  | .comma => .ok ⟨anchors, .flowEntries entries outer⟩
  | .flowMappingEnd => .ok (complete anchors (.mapping entries.reverse) outer)
  | _ => .error .misplaced

/-- Takes a token after a key of a mapping in brackets. -/
def inAfterFlowKey (anchors : List (String × Node)) (entries : List (Node × Node)) (key : Node)
    (outer : List Frame) : Token → Except Fault Builder
  | .value => .ok ⟨anchors, .node (.flowValue entries key :: outer)⟩
  | t => inAfterFlowEntry anchors ((key, .empty) :: entries) outer t

/-- Takes a token where something else than a node may come. -/
def resume (b : Builder) (t : Token) : Except Fault Builder :=
  match b.state with
  | .before => inBefore b.anchors t
  | .directed versioned => inDirected b.anchors versioned t
  | .opened => inOpened b.anchors t
  | .node frames => beginNode b.anchors frames t
  | .items items outer => inItems b.anchors items outer t
  | .run items outer => inRun b.anchors items outer t
  | .entries entries outer => inEntries b.anchors entries outer t
  | .afterKey entries key outer => inAfterKey b.anchors entries key outer t
  | .flowItems items outer => inFlowItems b.anchors items outer t
  | .afterFlowItem items outer => inAfterFlowItem b.anchors items outer t
  | .afterPairKey items key outer => inAfterPairKey b.anchors items key outer t
  | .flowEntries entries outer => inFlowEntries b.anchors entries outer t
  | .afterFlowKey entries key outer => inAfterFlowKey b.anchors entries key outer t
  | .afterFlowEntry entries outer => inAfterFlowEntry b.anchors entries outer t
  | .done node => inDone b.anchors node t
  | .closed node => inClosed b.anchors node t
  | .finished _ => .error .misplaced

/-- Takes a token. -/
def step (b : Builder) (t : Token) : Except Fault Builder := do
  match b.state with
  | .node frames =>
    match ← begin? b.anchors frames t with
    | some next => return next
    | none =>
      if leavesOut frames t then (complete b.anchors .empty frames).resume t else throw .misplaced
  | _ => b.resume t

end Builder

/-- The node of the document that tokens describe, empty if there is none. -/
def Node.ofTokens (tokens : List Token) : Except Fault Node := do
  match (← tokens.foldlM Builder.step {}).state with
  | .finished node => return node
  | _ => throw .misplaced

end CestWriter.Yaml
