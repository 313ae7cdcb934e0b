import SlurmExporter.Float64.Round
import SlurmExporter.Float64.Basic
import SlurmExporter.GoString
import SlurmExporter.Strconv
import SlurmExporter.Gres
import SlurmExporter.Csv
import SlurmExporter.Fetcher
import SlurmExporter.Fallback
import SlurmExporter.GoTime
import SlurmExporter.Cache
import SlurmExporter.Config
import SlurmExporter.Collector
import SlurmExporter.Concurrent
import SlurmExporter.Server
