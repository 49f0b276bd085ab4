/-
Where the program finds its files: the defaults, overlaid with the environment and then with what the
command line says. File names are relative to the data directory.
-/
import Concordance.Files.Path

namespace Concordance

/-- The data directory and the index file, as given. -/
structure Config where
  dataDir : String
  indexFile : String
deriving DecidableEq, Repr, Inhabited

namespace Config

def dataDirVariable : String := "FOLIO_DATA_DIR"

def indexVariable : String := "FOLIO_INDEX"

def fullCorpusFile : String := "corpus_full.json"

def flatCorpusFile : String := "corpus_search_index.json"

/-- The number of documents in a transaction, unless the user says otherwise. -/
def defaultBatchSize : Nat := 10000

/-- The number of characters on each side of a match, unless the user says otherwise. -/
def defaultContextChars : Nat := 300

/-- The number of contexts of a hit, unless the user says otherwise. -/
def defaultMaxContexts : Nat := 50

/-- The number of hits on a page, unless the user says otherwise. -/
def defaultPerPage : Nat := 20

/-- The configuration without environment or options. -/
def initial : Config := ⟨"data", "search.db"⟩

/-- The defaults overlaid with the environment, whose empty variables say nothing. -/
def ofEnvironment (lookup : String → Option String) : Config :=
  let value? (name : String) : Option String := (lookup name).filter (!·.isEmpty)
  { dataDir := (value? dataDirVariable).getD initial.dataDir
    indexFile := (value? indexVariable).getD initial.indexFile }

/-- The configuration with those paths replaced that are given. -/
def override (c : Config) (dataDir indexFile : Option String) : Config :=
  ⟨dataDir.getD c.dataDir, indexFile.getD c.indexFile⟩

def indexPath (c : Config) : String := Path.join c.dataDir c.indexFile

/--
The paths where a corpus may be, in the order of preference: the full format before the flat one, and the
data directory before the working directory.
-/
def corpusCandidates (c : Config) : List String :=
  let names := [fullCorpusFile, flatCorpusFile]
  names.foldl
    (fun candidates name => if candidates.any (Path.same name) then candidates else candidates ++ [name])
    (names.map (Path.join c.dataDir))

end Config

end Concordance
