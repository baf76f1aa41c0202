/-! # Metrics

The series that the server exports. Every one of them carries a label with the id of a stage.
-/

namespace StageMonitor

structure Histogram where
  name : String
  description : String
  deriving DecidableEq, Repr

structure Counter where
  name : String
  description : String
  deriving DecidableEq, Repr

namespace Histogram

/-- The cumulative buckets of a histogram are a series of their own. -/
def bucketName (metric : Histogram) : String :=
  metric.name ++ "_bucket"

def stageProcessing : Histogram :=
  ⟨"challenge_server_stage_processing_duration_ms", "Time spent processing a stage"⟩

def merge : Histogram :=
  ⟨"challenge_server_merge_duration_ms", "Time spent merging client events"⟩

def clientPayload : Histogram :=
  ⟨"challenge_server_stage_event_payload_per_client_bytes",
   "Average payload size per client for stage events"⟩

def all : List Histogram :=
  [stageProcessing, merge, clientPayload]

end Histogram

namespace Counter

def mergeAlerts : Counter :=
  ⟨"challenge_server_merge_alerts_total", "Merge alert counts"⟩

def clientAnomalies : Counter :=
  ⟨"challenge_server_client_anomalies_total", "Client anomaly occurrences"⟩

def all : List Counter :=
  [mergeAlerts, clientAnomalies]

end Counter

end StageMonitor
