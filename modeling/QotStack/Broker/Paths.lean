import Mathlib.Data.List.ReduceOption
import QotStack.Lib.Substring

/-!
# QotStack — from a node to the sibling directory (`zk_logic.c`)

The node of a publisher is `/timelines/T/P/publishers/M`, and when it has been made the broker asks
for the subscribers of the topic, whose nodes are in the directory `/timelines/T/P/subscribers`; and
the other way round. It derives the path of the directory from that of the node: it searches for
`/publishers/`, cuts the path off there, and appends `/subscribers`.

The search finds the first such component. A timeline or a topic may be called `publishers` as well,
and then the path is cut off too early: `sibling_paths_iff`. What is written fits in the buffer in
any case.
-/

namespace Qot

open Substring

/-! ## The source -/

/-- Make a path to a znode by combining multiple strings, where `none` is `NULL`. -/
def makePath (strings : List (Option (List Char))) : List Char := strings.reduceOption.flatten

/-- A buffer of some size with a string in it, if that fits with its terminator. -/
def inBuffer (size : Nat) (string : List Char) : Option (List Char) :=
  if string.length + 1 ≤ size then some string else none

/-- Pre-process a path: what is from a directory on is replaced by another directory. No result is a
write outside the buffer. -/
def processTopicString (find replacement : List Char) (path : List Char) : Option (List Char) :=
  let size := path.length + 1
  match strstr find path with
  | some len =>
    (inBuffer size (path.take len)).bind fun newPath => inBuffer size (newPath ++ replacement)
  | none => inBuffer size path

def processSubTopicString : List Char → Option (List Char) :=
  processTopicString "/publishers/".toList "/subscribers".toList

def processPubTopicString : List Char → Option (List Char) :=
  processTopicString "/subscribers/".toList "/publishers".toList

/-- The node that `zk_publisher_create` makes. -/
def publisherNode (timelineName topicName publisherName : List Char) : List Char :=
  makePath [some "/timelines/".toList, some timelineName, some "/".toList, some topicName,
    some "/publishers/".toList, some publisherName]

/-- The node that `zk_subscriber_create` makes. -/
def subscriberNode (timelineName topicName subscriberName : List Char) : List Char :=
  makePath [some "/timelines/".toList, some timelineName, some "/".toList, some topicName,
    some "/subscribers/".toList, some subscriberName]

/-! ## Directories under any root -/

section Components

/-- The path of a topic, from its components. -/
def topicPath (root timelineName topicName : List Char) : List Char :=
  '/' :: root ++ '/' :: timelineName ++ '/' :: topicName

/-- The length of the path before the directory that the search finds. -/
def cutLength (root timelineName topicName kind : List Char) : Nat :=
  if timelineName = kind then root.length + 1
  else if topicName = kind then root.length + timelineName.length + 2
  else root.length + timelineName.length + topicName.length + 3

variable {root timelineName topicName kind : List Char}

/-- Where a directory is found in the path of a node in it. -/
theorem strstr_topicPath (hroot : '/' ∉ root) (hT : '/' ∉ timelineName) (hP : '/' ∉ topicName)
    (hkind : '/' ∉ kind) (hne : root ≠ kind) (member : List Char) :
    strstr ('/' :: (kind ++ ['/']))
        (topicPath root timelineName topicName ++ '/' :: (kind ++ '/' :: member))
      = some (cutLength root timelineName topicName kind) := by
  have hcomponents : topicPath root timelineName topicName ++ '/' :: (kind ++ '/' :: member)
      = '/' :: (root ++ '/' ::
        (timelineName ++ '/' :: (topicName ++ '/' :: (kind ++ '/' :: member)))) := by
    simp [topicPath]
  rw [hcomponents, strstr_component hkind hroot, if_neg hne, strstr_component hkind hT,
    strstr_component hkind hP, strstr_component hkind hkind, if_pos rfl, cutLength]
  split
  · simp only [Option.map_some, Option.some.injEq]
    omega
  · split
    · simp only [Option.map_some, Option.some.injEq]
      omega
    · simp only [Option.map_some, Option.some.injEq]
      omega

/-- What is found is not shorter than what replaces it, so that nothing is written past the end. -/
theorem processTopicString_eq {find replacement : List Char}
    (hlen : replacement.length ≤ find.length) (path : List Char) :
    processTopicString find replacement path
      = some ((strstr find path).elim path fun len => path.take len ++ replacement) := by
  cases hfind : strstr find path with
  | none => simp [processTopicString, hfind, inBuffer]
  | some len =>
    have hroom := (prefix_of_strstr hfind).length_le
    rw [List.length_drop] at hroom
    have hcut : (path.take len).length + 1 ≤ path.length + 1 := by
      rw [List.length_take]
      omega
    have hwhole : (path.take len ++ replacement).length + 1 ≤ path.length + 1 := by
      rw [List.length_append, List.length_take]
      omega
    simp only [processTopicString, hfind, inBuffer, if_pos hcut, Option.bind_some, if_pos hwhole,
      Option.elim_some]

theorem length_topicPath : (topicPath root timelineName topicName).length
    = root.length + timelineName.length + topicName.length + 3 := by
  simp only [topicPath, List.length_append, List.length_cons]
  omega

/-- The directory is the right one if no component before it has its name. -/
theorem processTopicString_topicPath_iff {sibling : List Char} (hroot : '/' ∉ root)
    (hT : '/' ∉ timelineName) (hP : '/' ∉ topicName) (hkind : '/' ∉ kind) (hne : root ≠ kind)
    (hlen : sibling.length ≤ kind.length + 1) (member : List Char) :
    processTopicString ('/' :: (kind ++ ['/'])) ('/' :: sibling)
          (topicPath root timelineName topicName ++ '/' :: (kind ++ '/' :: member))
        = some (topicPath root timelineName topicName ++ '/' :: sibling)
      ↔ timelineName ≠ kind ∧ topicName ≠ kind := by
  have hroom : ('/' :: sibling).length ≤ ('/' :: (kind ++ ['/'])).length := by
    simp only [List.length_cons, List.length_append, List.length_nil]
    omega
  rw [processTopicString_eq hroom, strstr_topicPath hroot hT hP hkind hne, Option.elim_some,
    Option.some.injEq, List.append_left_inj]
  constructor
  · -- a path that is cut off too early is too short
    intro h
    have hcut := congrArg List.length h
    rw [List.length_take, List.length_append, length_topicPath, cutLength] at hcut
    split at hcut
    · omega
    · next hT' =>
      split at hcut
      · omega
      · next hP' => exact ⟨hT', hP'⟩
  · rintro ⟨hT', hP'⟩
    rw [cutLength, if_neg hT', if_neg hP', ← length_topicPath, List.take_left]

end Components

/-! ## The nodes of publishers and subscribers -/

/-- The directory of a topic in which the nodes of one kind are: `/timelines/T/P/kind`. -/
def topicDir (timelineName topicName kind : List Char) : List Char :=
  topicPath "timelines".toList timelineName topicName ++ '/' :: kind

theorem publisherNode_eq (timelineName topicName member : List Char) :
    publisherNode timelineName topicName member
      = topicPath "timelines".toList timelineName topicName
        ++ '/' :: ("publishers".toList ++ '/' :: member) := by
  simp [publisherNode, makePath, topicPath]

theorem subscriberNode_eq (timelineName topicName member : List Char) :
    subscriberNode timelineName topicName member
      = topicPath "timelines".toList timelineName topicName
        ++ '/' :: ("subscribers".toList ++ '/' :: member) := by
  simp [subscriberNode, makePath, topicPath]

/-- A name in a path. -/
structure PathName where
  chars : List Char
  noSlash : '/' ∉ chars

/-- From the node of a publisher the directory of the subscribers is found exactly if neither
timeline nor topic is called `publishers`, and from the node of a subscriber that of the publishers
exactly if neither is called `subscribers`. No path is too long for its buffer. -/
theorem sibling_paths_iff (timelineName topicName member : PathName) (path : List Char) :
    (processSubTopicString (publisherNode timelineName.chars topicName.chars member.chars)
          = some (topicDir timelineName.chars topicName.chars "subscribers".toList)
        ↔ timelineName.chars ≠ "publishers".toList ∧ topicName.chars ≠ "publishers".toList)
      ∧ (processPubTopicString (subscriberNode timelineName.chars topicName.chars member.chars)
          = some (topicDir timelineName.chars topicName.chars "publishers".toList)
        ↔ timelineName.chars ≠ "subscribers".toList ∧ topicName.chars ≠ "subscribers".toList)
      ∧ (processSubTopicString path).isSome ∧ (processPubTopicString path).isSome := by
  have hT := timelineName.noSlash
  have hP := topicName.noSlash
  have hroot : '/' ∉ "timelines".toList := by decide
  have hpub : '/' ∉ "publishers".toList := by decide
  have hsub : '/' ∉ "subscribers".toList := by decide
  refine ⟨?_, ?_, ?_, ?_⟩
  · rw [publisherNode_eq, topicDir]
    exact processTopicString_topicPath_iff hroot hT hP hpub (by decide) (by decide) member.chars
  · rw [subscriberNode_eq, topicDir]
    exact processTopicString_topicPath_iff hroot hT hP hsub (by decide) (by decide) member.chars
  · rw [processSubTopicString, processTopicString_eq (by decide)]
    rfl
  · rw [processPubTopicString, processTopicString_eq (by decide)]
    rfl

/-- A timeline that is called `publishers`: the broker asks for the nodes in a directory that is
none of the topic's. -/
theorem sibling_paths_same_name :
    publisherNode "publishers".toList "position".toList "7".toList
        = "/timelines/publishers/position/publishers/7".toList
      ∧ processSubTopicString (publisherNode "publishers".toList "position".toList "7".toList)
        = some "/timelines/subscribers".toList
      ∧ topicDir "publishers".toList "position".toList "subscribers".toList
        = "/timelines/publishers/position/subscribers".toList := by
  decide

end Qot
