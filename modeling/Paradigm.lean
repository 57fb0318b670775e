import Paradigm.Proofs.Registry
import Paradigm.Lexicon.Reading
import Paradigm.Proofs.Text.Units
import Paradigm.Proofs.Text.Bocu.Order
import Paradigm.Proofs.Trie.Shape
import Paradigm.Proofs.Storage.PackedArray.Stored
import Paradigm.Proofs.Storage.Mirror
import Paradigm.Proofs.Trie.StringMap.Building
import Paradigm.Proofs.Sections
import Paradigm.Proofs.Table.SortedTable.Building
import Paradigm.Proofs.Table.TrieTable.Building
import Paradigm.Proofs.Pattern.Reinflection
import Paradigm.Proofs.Pattern.LemmaForm
import Paradigm.Proofs.Inflector.Caseless
import Paradigm.Proofs.Lexicon
import Paradigm.Proofs.Dictionary.Grammemes
import Paradigm.Proofs.Analysis
import Paradigm.Proofs.Storage.RecordLayout.Exact
import Paradigm.Proofs.Storage.WordChecks
import Paradigm.Proofs.Text.Bocu.Truncation
import Paradigm.Proofs.Dictionary.Retry
import Paradigm.Proofs.Accepted
import Paradigm.Proofs.Locale.Display
import Paradigm.Proofs.Text.Encoding.Selection
