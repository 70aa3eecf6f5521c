import FreeOnline.Library.PatternMap
import FreeOnline.Library.Text

/-!
# Hosts and their aliases

The configuration names groups of a host and its aliases. An alias is replaced by its host in the
URI of a document; a host may be a pattern, for which the first one to connect is taken. The URIs
and the matching of regular expressions are parameters.
-/

set_option autoImplicit false

namespace FreeOnline.Wsd

open FreeOnline.Library Std

/-- What is used of a URI class. Texts that are no URI, and authorities that are none, are
exceptions. -/
structure PocoUri (Uri : Type) where
  parse : Text → Option Uri
  isEmpty : Uri → Bool
  getScheme : Uri → Text
  getHost : Uri → Text
  getPort : Uri → Nat
  getAuthority : Uri → Text
  getPath : Uri → Text
  setAuthority : Uri → Text → Option Uri

def iequal (lhs rhs : Text) : Bool := lhs.map Char.toLower = rhs.map Char.toLower

/-- The parts between the delimiters that are not empty; `part` has been read so far. -/
def splitStringToVector (delim : Char) (part : Text) : Text → List Text
  | [] => if part = [] then [] else [part]
  | ch :: rest =>
      if ch = delim then
        if part = [] then splitStringToVector delim [] rest
        else part :: splitStringToVector delim [] rest
      else splitStringToVector delim (part ++ [ch]) rest

/-!
## The configuration
-/

structure AliasGroup where
  host : Option Text
  aliases : List Text

structure AliasGroups where
  mode : Text
  groups : List AliasGroup

structure HostUtil where
  mode : Text
  aliasHosts : TreeMap Text Text
  hostList : TreeSet Text

namespace HostUtil

variable {Uri : Type} (poco : PocoUri Uri) (fullMatch : Text → Text → Bool)

/-- The URIs of an alias, which may be several names; the first that is none ends them. -/
def aliasUris (aliasText : Text) : List Uri :=
  match poco.parse aliasText with
  | none => []
  | some aliasUri =>
      if poco.isEmpty aliasUri then []
      else
        let rec parseNames : List Text → List Uri
          | [] => []
          | x :: names =>
              match poco.parse (poco.getScheme aliasUri ++ "://".toList ++ x ++ ':' ::
                  Nat.toDigits 10 (poco.getPort aliasUri)) with
              | none => []
              | some aUri => aUri :: parseNames names
        parseNames (splitStringToVector '|' [] (poco.getHost aliasUri))

def parseAlias (realUri : Uri) (util : HostUtil) (aliasText : Text) : HostUtil :=
  (aliasUris poco aliasText).foldl (fun util aUri =>
    { util with
      aliasHosts := util.aliasHosts.insertIfNew (poco.getAuthority aUri)
        (poco.getAuthority realUri) }) util

/-- A group without a host is left out, and one whose host is no URI has no effect. -/
def parseGroup (util : HostUtil) (group : AliasGroup) : HostUtil :=
  match group.host with
  | none => util
  | some uri =>
      if uri = [] then util
      else
        match poco.parse uri with
        | none => util
        | some realUri =>
            group.aliases.foldl (parseAlias poco realUri)
              { util with hostList := util.hostList.insert (poco.getHost realUri) }

/-- The groups that are read: none where the mode asks for the first host alone. -/
def readGroups (config : AliasGroups) : List AliasGroup :=
  if config.groups.isEmpty || !iequal config.mode "first".toList then
    config.groups.takeWhile fun group => group.host.isSome
  else []

/-- The state after the configuration has been read, which is compatible without alias groups. -/
def parseAliases : Option AliasGroups → HostUtil
  | none => ⟨"compat".toList, ∅, ∅⟩
  | some config => (readGroups config).foldl (parseGroup poco) ⟨config.mode, ∅, ∅⟩

/-!
## The URI of a document
-/

def getValue (map : TreeMap Text Text) (subject : Text) : Text :=
  ((matching? fullMatch map subject).map Prod.snd).getD []

def getValueOfSet (set : TreeSet Text) (subject : Text) : Text :=
  if subject ∈ set then subject
  else (set.toList.find? fun value => fullMatch value subject).getD []

/-- What is written of a URI. -/
def written (uri : Uri) : Text :=
  if poco.getAuthority uri = [] then poco.getPath uri
  else
    poco.getScheme uri ++ "://".toList ++ poco.getHost uri ++ ':' ::
      Nat.toDigits 10 (poco.getPort uri) ++ poco.getPath uri

/-- The new URI, unless there is an exception. A host that is no alias and not in the list as it
stands is remembered as the host of its entry in the list. -/
def getNewUri (util : HostUtil) (uri : Uri) : Option Text × HostUtil :=
  if iequal util.mode "compat".toList then (some (poco.getPath uri), util)
  else
    let value := getValue fullMatch util.aliasHosts (poco.getAuthority uri)
    if value ≠ [] then ((poco.setAuthority uri value).map (written poco), util)
    else
      let val := getValueOfSet fullMatch util.hostList (poco.getHost uri)
      (some (written poco uri),
        if val ≠ poco.getHost uri then
          { util with aliasHosts := util.aliasHosts.insertIfNew val (poco.getHost uri) }
        else util)

end HostUtil

end FreeOnline.Wsd
